import Autogen.FileSystem.Lookup
import Autogen.Proofs.Path.Absolute
import Autogen.Proofs.Text.Split
import Mathlib.Data.List.Infix

/-!
# Texts of paths

A path that is spelled is gone through by the names that it has, and it is read back from its text
if reading keeps its names.

## Main definitions

* `Path.Named` — a path whose names are kept when its text is read.

## Main statements

* `FileSystem.stepNames_text` — the names of a path that is spelled.
* `Path.ofString_text` — a path whose names are kept is read back from its text.
* `Path.names_collapse` — the names of a path that is cleaned up lead to entries.
-/

namespace Autogen

namespace FileSystem

/-! ## The names of a spelled path -/

theorem slash_toList : "/".toList = ['/'] := rfl

theorem slash_isHoldingPart : Text.isHoldingPart '/' = false := by decide

/-- A slash in front of a text cuts off an empty piece. -/
theorem splitOn_slash_append (text : String) :
    Text.splitOn "/" ("/" ++ text) = "" :: Text.splitOn "/" text := by
  have hsplit := Text.splitOn_append slash_toList slash_isHoldingPart "" text
  have hempty : Text.splitOn "/" "" = [""] :=
    Text.splitOn_of_not_mem slash_toList slash_isHoldingPart List.not_mem_nil
  rw [String.empty_append, hempty] at hsplit
  exact hsplit

/-- Names put together with slashes do not start at the root. -/
theorem startsAtRoot_join {parts : List String}
    (hparts : ∀ n ∈ parts, n ≠ "" ∧ '/' ∉ n.toList) :
    startsAtRoot (Text.join "/" parts) = false := by
  cases parts with
  | nil => rfl
  | cons first rest =>
    obtain ⟨hne, hslash⟩ := hparts first List.mem_cons_self
    have hchars : first.toList ≠ [] := by simpa using hne
    obtain ⟨c, cs, hfirst⟩ := List.exists_cons_of_ne_nil hchars
    have hc : c ≠ '/' := by
      rintro rfl
      exact hslash (hfirst ▸ List.mem_cons_self)
    cases rest with
    | nil => simp [startsAtRoot, Text.join, hfirst, hc]
    | cons second rest => simp [startsAtRoot, Text.join, hfirst, hc]

/-- The names that a text of names between slashes is gone through by. -/
theorem stepNames_of_splitOn {text : String} (fill : List String) {parts : List String}
    (hne : parts ≠ []) (hparts : ∀ n ∈ parts, n ≠ "") (hfill : ∀ n ∈ fill, n = "")
    (h : Text.splitOn "/" text = fill ++ parts) : stepNames text = parts := by
  have hnames : (fill ++ parts).filter (· != "") = parts := by
    rw [List.filter_append, List.filter_eq_nil_iff.mpr, List.nil_append, List.filter_eq_self.mpr]
    · intro n hn
      simpa using hparts n hn
    · intro n hn
      simp [hfill n hn]
  have hlast : (fill ++ parts).getLast? ≠ some "" := by
    rw [List.getLast?_append_of_ne_nil _ hne, List.getLast?_eq_some_getLast hne]
    exact fun heq => hparts _ (List.getLast_mem hne) (Option.some.inj heq)
  have hasks : ((fill ++ parts).getLast? == some "") = false := beq_eq_false_iff_ne.mpr hlast
  unfold stepNames
  simp only [h, hnames, hasks, Bool.and_false, Bool.false_eq_true, if_false]

/-- A path that is spelled is gone through by its names. -/
theorem stepNames_text {p : Path} (hne : p.parts ≠ [])
    (hparts : ∀ n ∈ p.parts, n ≠ "" ∧ '/' ∉ n.toList) : stepNames p.text = p.parts := by
  have hnames : ∀ n ∈ p.parts, n ≠ "" := fun n hn => (hparts n hn).1
  have hjoin : Text.splitOn "/" (Text.join "/" p.parts) = p.parts :=
    Text.splitOn_join slash_toList slash_isHoldingPart hne fun n hn => (hparts n hn).2
  obtain ⟨anchor, parts⟩ := p
  obtain ⟨first, rest, rfl⟩ := List.exists_cons_of_ne_nil hne
  cases anchor with
  | relative =>
    refine stepNames_of_splitOn [] hne hnames (by simp) ?_
    simpa [Path.text, Path.Anchor.text] using hjoin
  | root =>
    have htext : Path.text ⟨.root, first :: rest⟩ = "/" ++ Text.join "/" (first :: rest) := rfl
    refine stepNames_of_splitOn [""] hne hnames (by simp) ?_
    rw [htext, splitOn_slash_append, hjoin]
    rfl
  | doubleRoot =>
    have htext : Path.text ⟨.doubleRoot, first :: rest⟩ =
        "/" ++ ("/" ++ Text.join "/" (first :: rest)) := by
      rw [← String.append_assoc]
      rfl
    refine stepNames_of_splitOn ["", ""] hne hnames (by simp) ?_
    rw [htext, splitOn_slash_append, splitOn_slash_append, hjoin]
    rfl

/-! ## Where a text starts -/

theorem isAbsolute_ofString (text : String) :
    (Path.ofString text).isAbsolute = startsAtRoot text := by
  have hchars (cs : List Char) :
      (Path.Anchor.ofChars cs != .relative) = (cs.head? == some '/') := by
    unfold Path.Anchor.ofChars
    split
    · rfl
    · rfl
    · rfl
    · rename_i hroot
      cases cs with
      | nil => rfl
      | cons c cs =>
        have hc : c ≠ '/' := by
          rintro rfl
          exact hroot cs rfl
        simp [hc]
  exact hchars text.toList

theorem startsAtRoot_text {p : Path} (h : p.isAbsolute = true) : startsAtRoot p.text = true := by
  obtain ⟨anchor, parts⟩ := p
  cases anchor with
  | relative => cases h
  | root =>
    have htext : Path.text ⟨.root, parts⟩ = "/" ++ Text.join "/" parts := rfl
    rw [htext, startsAtRoot, String.toList_append, slash_toList]
    rfl
  | doubleRoot =>
    have htext : Path.text ⟨.doubleRoot, parts⟩ = "//" ++ Text.join "/" parts := rfl
    rw [htext, startsAtRoot, String.toList_append]
    rfl

theorem startsAtRoot_text_relative {parts : List String} (hne : parts ≠ [])
    (hparts : ∀ n ∈ parts, n ≠ "" ∧ '/' ∉ n.toList) :
    startsAtRoot (Path.text ⟨.relative, parts⟩) = false := by
  have htext : Path.text ⟨.relative, parts⟩ = Text.join "/" parts := by
    obtain ⟨first, rest, rfl⟩ := List.exists_cons_of_ne_nil hne
    exact String.empty_append
  rw [htext]
  exact startsAtRoot_join hparts

/-- The spelling of a path goes on from the spelling of a directory above it. -/
theorem text_append (anchor : Path.Anchor) {parts more : List String} (hparts : parts ≠ [])
    (hmore : more ≠ []) :
    Path.text ⟨anchor, parts ++ more⟩ = Path.text ⟨anchor, parts⟩ ++ "/" ++ Text.join "/" more := by
  have hjoin : Text.join "/" (parts ++ more) = Text.join "/" parts ++ "/" ++ Text.join "/" more :=
    String.intercalate_append_of_ne_nil hparts hmore
  obtain ⟨first, rest, rfl⟩ := List.exists_cons_of_ne_nil hparts
  have htext (parts : List String) (hne : parts ≠ []) :
      Path.text ⟨anchor, parts⟩ = anchor.text ++ Text.join "/" parts := by
    obtain ⟨first, rest, rfl⟩ := List.exists_cons_of_ne_nil hne
    cases anchor <;> rfl
  rw [htext _ hparts, htext _ (by simp), hjoin]
  simp only [String.append_assoc]

end FileSystem

/-! ## Reading what was written -/

open FileSystem

/-- A path whose names are kept when its text is read. -/
def Path.Named (p : Path) : Prop :=
  ∀ n ∈ p.parts, n ≠ "" ∧ n ≠ "." ∧ '/' ∉ n.toList

namespace Path

/-- The names that are read from a text are neither empty nor those of the same directory. -/
theorem named_ofString (text : String) : (ofString text).Named := by
  intro n hn
  obtain ⟨hsplit, hname⟩ := List.mem_filter.mp hn
  have hne : n ≠ "" ∧ n ≠ "." := by simpa [isName] using hname
  exact ⟨hne.1, hne.2, Text.not_mem_of_mem_splitOn slash_toList slash_isHoldingPart hsplit⟩

/-- An anchor is read back in front of what does not start at the root. -/
theorem ofChars_append (anchor : Anchor) {rest : String} (h : startsAtRoot rest = false) :
    Anchor.ofChars (anchor.text ++ rest).toList = anchor := by
  have hcases : rest.toList = [] ∨ ∃ c cs, rest.toList = c :: cs ∧ c ≠ '/' := by
    cases hrest : rest.toList with
    | nil => exact .inl rfl
    | cons c cs =>
      refine .inr ⟨c, cs, rfl, ?_⟩
      simpa [startsAtRoot, hrest] using h
  rw [String.toList_append]
  rcases hcases with hrest | ⟨c, cs, hrest, hc⟩
  · rw [hrest]
    cases anchor <;> rfl
  · rw [hrest]
    cases anchor <;> simp [Anchor.text, Anchor.ofChars, hc]

/-- The pieces of a text behind an anchor are those of the text and empty ones. -/
theorem filter_splitOn_append (anchor : Anchor) (rest : String) :
    (Text.splitOn "/" (anchor.text ++ rest)).filter isName =
      (Text.splitOn "/" rest).filter isName := by
  cases anchor with
  | relative => rw [Anchor.text, String.empty_append]
  | root =>
    rw [Anchor.text, splitOn_slash_append]
    rfl
  | doubleRoot =>
    have htext : Anchor.text .doubleRoot ++ rest = "/" ++ ("/" ++ rest) := by
      rw [← String.append_assoc]
      rfl
    rw [htext, splitOn_slash_append, splitOn_slash_append]
    rfl

/-- A path is read back from its text. -/
theorem ofString_text {p : Path} (h : p.Named) : ofString p.text = p := by
  obtain ⟨anchor, parts⟩ := p
  by_cases hempty : parts = []
  · subst hempty
    cases anchor <;> rfl
  · have htext : text ⟨anchor, parts⟩ = anchor.text ++ Text.join "/" parts := by
      obtain ⟨first, rest, rfl⟩ := List.exists_cons_of_ne_nil hempty
      cases anchor <;> rfl
    have hjoin : Text.splitOn "/" (Text.join "/" parts) = parts :=
      Text.splitOn_join slash_toList slash_isHoldingPart hempty fun n hn => (h n hn).2.2
    have hkept : parts.filter isName = parts := List.filter_eq_self.mpr fun n hn => by
      simp [isName, (h n hn).1, (h n hn).2.1]
    rw [ofString, htext, filter_splitOn_append, hjoin, hkept, ofChars_append]
    exact startsAtRoot_join fun n hn => ⟨(h n hn).1, (h n hn).2.2⟩

/-- Paths that are read back are told apart by their texts. -/
theorem Named.eq_of_text {p q : Path} (hp : p.Named) (hq : q.Named) (h : p.text = q.text) :
    p = q := by
  rw [← ofString_text hp, h, ofString_text hq]

theorem Named.of_subset {p q : Path} (hp : p.Named) (h : q.parts ⊆ p.parts) : q.Named :=
  fun n hn => hp n (h hn)

theorem Named.snoc {p : Path} (hp : p.Named) {name : String}
    (hname : name ≠ "" ∧ name ≠ "." ∧ '/' ∉ name.toList) :
    Named { p with parts := p.parts ++ [name] } := by
  intro n hn
  rcases List.mem_append.mp hn with hn | hn
  · exact hp n hn
  · rwa [List.mem_singleton.mp hn]

theorem Named.join {base p : Path} (hbase : base.Named) (hp : p.Named) : (base.join p).Named := by
  unfold Path.join
  split
  · exact hp
  · intro n hn
    exact (List.mem_append.mp hn).elim (hbase n) (hp n)

/-! ## Paths told from the working directory -/

variable [Environment]

theorem named_workingDirectory : workingDirectory.Named := fun n hn =>
  have hname := Environment.isSystemName n hn
  ⟨hname.ne_empty, hname.ne_here, hname.slash⟩

/-- The names of a path that is cleaned up lead to entries. -/
theorem names_collapse {p : Path} (h : p.Named) : ∀ n ∈ p.collapse.parts, IsEntryName n := by
  intro n hn
  obtain ⟨hmem, hup⟩ := (mem_collapseOnto hn).resolve_left List.not_mem_nil
  obtain ⟨hempty, hhere, hslash⟩ := named_workingDirectory.join h n hmem
  exact ⟨hempty, hhere, hup, hslash⟩

theorem Named.collapse {p : Path} (h : p.Named) : p.collapse.Named := by
  intro n hn
  have hentry := names_collapse h n hn
  exact ⟨hentry.ne_empty, hentry.ne_here, hentry.slash⟩

end Path

end Autogen
