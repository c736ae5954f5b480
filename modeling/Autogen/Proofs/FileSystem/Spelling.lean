import Autogen.Proofs.Path.Text

/-!
# Spelled paths

Where the system accepts the spelling of a path, it accepts that of everything above it.

## Main definitions

* `Spellable`, `Passable` — the paths that the system can be asked about.

## Main statements

* `spellingFault?_text` — a path can be spelled if its names can.
* `spellingFault?_text_of_append`, `isPathTooLong_text_of_append` — a path can be spelled up to a
  name if it can be spelled.
-/

namespace Autogen

namespace Text

/-- What is held does not depend on what follows behind a slash. -/
theorem heldBy_append_slash (cs ds : List Char) :
    ∃ rest, heldBy (cs ++ '/' :: ds) = heldBy cs ++ rest := by
  have hslash : '/' ≠ halfMark := by decide
  fun_induction heldBy cs with
  | case1 => exact ⟨_, rfl⟩
  | case2 c =>
    by_cases hc : c = halfMark
    · subst hc
      have hmarked : marked '/' = 0xd800 := by decide
      refine ⟨heldBy ds, ?_⟩
      rw [List.singleton_append, heldBy_mark_cons, hmarked, if_pos rfl, List.singleton_append]
    · refine ⟨heldBy ('/' :: ds), ?_⟩
      rw [List.singleton_append, heldBy_cons hc, if_neg hc, List.singleton_append]
  | case3 d rest ih =>
    obtain ⟨more, hmore⟩ := ih
    refine ⟨more, ?_⟩
    rw [List.cons_append, List.cons_append, heldBy_mark_cons, hmore, List.cons_append]
  | case4 c d rest hc ih =>
    obtain ⟨more, hmore⟩ := ih
    refine ⟨more, ?_⟩
    rw [List.cons_append, heldBy_cons hc, hmore, List.cons_append]

end Text

namespace FileSystem

/-! ## Paths that can be asked about -/

theorem codePoints_append_slash (a b : String) :
    ∃ rest, Text.codePoints (a ++ "/" ++ b) = Text.codePoints a ++ rest := by
  rw [Text.codePoints, Text.codePoints, String.toList_append, String.toList_append, slash_toList,
    List.append_assoc, List.singleton_append]
  exact Text.heldBy_append_slash a.toList b.toList

theorem spellingFault?_eq_none {text : String} :
    spellingFault? text = none ↔ (Text.codePoints text).all isWritable = true ∧
    '\x00' ∉ text.toList := by
  unfold spellingFault?
  cases (Text.codePoints text).all isWritable <;> simp

/-- A text that can be spelled can be spelled up to a slash. -/
theorem spellingFault?_of_append {a b : String} (h : spellingFault? (a ++ "/" ++ b) = none) :
    spellingFault? a = none := by
  obtain ⟨rest, hcodes⟩ := codePoints_append_slash a b
  obtain ⟨hwritable, hnul⟩ := spellingFault?_eq_none.mp h
  rw [hcodes, List.all_append, Bool.and_eq_true] at hwritable
  refine spellingFault?_eq_none.mpr ⟨hwritable.1, fun hmem => hnul ?_⟩
  simp [hmem]

/-- A slash can be written behind what can be written. -/
theorem all_isWritable_append_slash {cs ds : List Char}
    (hcs : (Text.heldBy cs).all isWritable = true) (hds : (Text.heldBy ds).all isWritable = true) :
    (Text.heldBy (cs ++ '/' :: ds)).all isWritable = true := by
  have hslash : '/' ≠ Text.halfMark := by decide
  have hmark : isWritable 0xd800 = false := by decide
  have hwritable : isWritable '/'.toNat = true := by decide
  fun_induction Text.heldBy cs with
  | case1 => rw [List.nil_append, Text.heldBy_cons hslash, List.all_cons,
      hwritable, hds, Bool.and_self]
  | case2 c =>
    by_cases hc : c = Text.halfMark
    · simp [hc, hmark] at hcs
    · simp_all [Text.heldBy_cons]
  | case3 d rest ih => simp_all [Text.heldBy_mark_cons]
  | case4 c d rest hc ih => simp_all [Text.heldBy_cons]

/-- Texts that can be spelled can be spelled with a slash between them. -/
theorem spellingFault?_append_slash {a b : String} (ha : spellingFault? a = none)
    (hb : spellingFault? b = none) :
    spellingFault? (a ++ "/" ++ b) = none := by
  obtain ⟨hawritable, hanul⟩ := spellingFault?_eq_none.mp ha
  obtain ⟨hbwritable, hbnul⟩ := spellingFault?_eq_none.mp hb
  refine spellingFault?_eq_none.mpr ⟨?_, ?_⟩
  · rw [Text.codePoints, String.toList_append, String.toList_append,
      slash_toList, List.append_assoc, List.singleton_append]
    exact all_isWritable_append_slash hawritable hbwritable
  · simp [hanul, hbnul]

/-- A text that is short enough is short enough up to a slash. -/
theorem isPathTooLong_of_append {a b : String} (h : isPathTooLong (a ++ "/" ++ b) = false) :
    isPathTooLong a = false := by
  obtain ⟨rest, hcodes⟩ := codePoints_append_slash a b
  rw [isPathTooLong, systemBytes, hcodes, List.flatMap_append, List.length_append] at h
  rw [isPathTooLong, systemBytes]
  simp only [decide_eq_false_iff_not] at h ⊢
  omega

/-- A path can be spelled if its names can. -/
theorem spellingFault?_text {p : Path} (h : ∀ n ∈ p.parts, spellingFault? n = none) :
    spellingFault? p.text = none := by
  have hempty : spellingFault? "" = none := by decide
  have hslash {text : String} (htext : spellingFault? text = none) :
      spellingFault? ("/" ++ text) = none := by
    have hbehind := spellingFault?_append_slash hempty htext
    rwa [String.empty_append] at hbehind
  have hjoin (parts : List String) (hparts : ∀ n ∈ parts, spellingFault? n = none) :
      spellingFault? (Text.join "/" parts) = none := by
    induction parts with
    | nil => exact hempty
    | cons first rest ih =>
      obtain ⟨hfirst, hrest⟩ := List.forall_mem_cons.mp hparts
      by_cases hne : rest = []
      · subst hne
        simpa [Text.join] using hfirst
      · have happend : Text.join "/" (first :: rest) = first ++ "/" ++ Text.join "/" rest :=
          String.intercalate_append_of_ne_nil (List.cons_ne_nil first []) hne
        rw [happend]
        exact spellingFault?_append_slash hfirst (ih hrest)
  obtain ⟨anchor, parts⟩ := p
  have hnames := hjoin parts h
  cases anchor with
  | relative =>
    cases parts with
    | nil => exact (by decide : spellingFault? "." = none)
    | cons first rest =>
      have htext : Path.text ⟨.relative, first :: rest⟩ = Text.join "/" (first :: rest) :=
        String.empty_append
      rwa [htext]
  | root => exact hslash hnames
  | doubleRoot =>
    have htext : Path.text ⟨.doubleRoot, parts⟩ = "/" ++ ("/" ++ Text.join "/" parts) := by
      rw [← String.append_assoc]
      rfl
    rw [htext]
    exact hslash (hslash hnames)

/-- A path can be spelled up to a name if it can be spelled. -/
theorem spellingFault?_text_of_append {anchor : Path.Anchor} {parts more : List String}
    (hparts : parts ≠ []) (h : spellingFault? (Path.text ⟨anchor, parts ++ more⟩) = none) :
    spellingFault? (Path.text ⟨anchor, parts⟩) = none := by
  by_cases hmore : more = []
  · rwa [hmore, List.append_nil] at h
  · rw [text_append anchor hparts hmore] at h
    exact spellingFault?_of_append h

/-- A path is short enough up to a name if it is short enough. -/
theorem isPathTooLong_text_of_append {anchor : Path.Anchor} {parts more : List String}
    (hparts : parts ≠ []) (h : isPathTooLong (Path.text ⟨anchor, parts ++ more⟩) = false) :
    isPathTooLong (Path.text ⟨anchor, parts⟩) = false := by
  by_cases hmore : more = []
  · rwa [hmore, List.append_nil] at h
  · rw [text_append anchor hparts hmore] at h
    exact isPathTooLong_of_append h

/-- The system accepts the spelling of a path. -/
structure Spellable [Environment] (p : Path) : Prop where
  spelling : spellingFault? p.text = none
  length : isPathTooLong p.collapse.text = false

/-- The system can be asked about a path: it accepts the spelling, and no name has too many
bytes. -/
structure Passable [Environment] (p : Path) : Prop extends Spellable p where
  names : ∀ n ∈ p.parts, isTooLong n = false

end FileSystem

end Autogen
