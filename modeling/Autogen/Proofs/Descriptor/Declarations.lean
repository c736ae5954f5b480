import Autogen.Proofs.Descriptor.Roundtrip
import Mathlib.Data.List.Induction

/-!
# Declarations in a text

What a text of sections says, and in which lines it says it. Values are kept apart from the text
around them, so that none of them can begin a declaration, end one or hide one.

## Main definitions

* `isDeclaration` — the lines that begin as declarations do.

## Main statements

* `filter_isDeclaration_format` — every entry has one declaration, in the order of the entries.
* `entries_of_format` — what is read from a text of sections.
-/

namespace Autogen

namespace OrderedMap

variable {κ α : Type} [DecidableEq κ]

theorem ofList_concat (pairs : List (κ × α)) (pair : κ × α) :
    ofList (pairs ++ [pair]) = (ofList pairs).insert pair.1 pair.2 := by
  simp [ofList]

/-- The keys of some pairs in the order of their first occurrences. -/
theorem keys_ofList (pairs : List (κ × α)) :
    (ofList pairs).keys = (pairs.map Prod.fst).eraseDups := by
  induction pairs using List.reverseRecOn with
  | nil => rfl
  | append_singleton pairs pair ih =>
    have hknown : pair.1 ∈ (ofList pairs).keys ↔ pair.1 ∈ pairs.map Prod.fst := mem_keys_ofList
    rw [ofList_concat, keys_insert, List.map_append, List.eraseDups_append]
    by_cases hold : pair.1 ∈ pairs.map Prod.fst
    · rw [if_pos (hknown.mpr hold), ih]
      simp [List.removeAll, hold]
    · rw [if_neg (mt hknown.mp hold), ih]
      simp [List.removeAll, hold, List.eraseDups_cons]

/-- Of several values of a key the last one counts. -/
theorem get?_ofList (pairs : List (κ × α)) (key : κ) :
    (ofList pairs).get? key = pairs.reverse.lookup key := by
  induction pairs using List.reverseRecOn with
  | nil => rfl
  | append_singleton pairs pair ih =>
    rw [ofList_concat, get?_insert, ih, List.reverse_concat, List.lookup_cons]
    by_cases heq : key = pair.1
    · simp [heq]
    · simp [heq, beq_eq_false_iff_ne.mpr heq]

/-- Values of other keys make no difference to a key. -/
theorem get?_ofList_append {pairs more : List (κ × α)} {key : κ} (h : ∀ pair ∈ more, pair.1 ≠ key) :
    (ofList (pairs ++ more)).get? key = (ofList pairs).get? key := by
  have hnone : more.reverse.lookup key = none := by
    rw [List.lookup_eq_none_iff]
    intro pair hpair
    simpa using (h pair (List.mem_reverse.mp hpair)).symm
  rw [get?_ofList, get?_ofList, List.reverse_append, List.lookup_append, hnone, Option.none_or]

end OrderedMap

namespace Descriptor

/-! ## Lines -/

/-- Whether a line begins as declarations do. -/
def isDeclaration (line : String) : Bool :=
  "set(".toList.isPrefixOf line.toList

theorem isDeclaration_declaration (entry : Entry) : isDeclaration (declaration entry) = true := by
  rw [isDeclaration, toList_declaration, List.isPrefixOf_iff_prefix]
  exact List.prefix_append _ _

theorem isDeclaration_title (title : String) : isDeclaration ("# " ++ title) = false := by
  rw [isDeclaration, String.toList_append]
  rfl

theorem filter_isDeclaration_section (s : Section) :
    s.lines.filter isDeclaration = s.entries.map declaration := by
  rw [Section.lines, List.filter_cons_of_neg (by simp [isDeclaration_title]), List.filter_eq_self]
  intro line hline
  obtain ⟨entry, -, rfl⟩ := List.mem_map.mp hline
  exact isDeclaration_declaration entry

/-- The empty lines between sections declare nothing. -/
theorem filter_isDeclaration_intercalate (ls : List (List String)) :
    ([""].intercalate ls).filter isDeclaration = ls.flatMap (·.filter isDeclaration) := by
  have hempty : [""].filter isDeclaration = [] := rfl
  induction ls with
  | nil => rfl
  | cons part rest ih =>
    cases rest with
    | nil => simp
    | cons next rest =>
      rw [List.intercalate_cons_cons, List.filter_append, List.filter_append, hempty,
        List.append_nil, ih]
      rfl

theorem filter_isDeclaration_lines (sections : List Section) :
    (lines sections).filter isDeclaration = (sections.flatMap (·.entries)).map declaration := by
  rw [lines, filter_isDeclaration_intercalate, List.flatMap_map]
  simp only [filter_isDeclaration_section]
  induction sections with
  | nil => rfl
  | cons s rest ih =>
    rw [List.filter_cons, List.flatMap_cons, List.map_append, ← ih]
    cases hempty : s.entries.isEmpty with
    | true => simp [List.isEmpty_iff.mp hempty]
    | false => simp

/-- Every entry has one declaration, in the order of the entries. -/
theorem filter_isDeclaration_format {sections : List Section} (h : ∀ s ∈ sections, s.Legible) :
    (Text.splitOn "\n" (format sections)).filter isDeclaration =
      (sections.flatMap (·.entries)).map declaration := by
  have hempty : [""].filter isDeclaration = [] := rfl
  rw [splitOn_format fun s hs => (h s hs).freeOf, List.filter_append, hempty, List.append_nil,
    ← filter_isDeclaration_lines]
  split
  · rename_i hnil
    rw [hnil, hempty]
    rfl
  · rfl

/-! ## Texts -/

/-- What is read from the text of sections, whatever the values are: each key once, in the order in
which the keys come first, with the last of its values. The lines of the text that begin as
declarations do are those of the entries. -/
theorem entries_of_format {sections : List Section}
    (htitles : ∀ s ∈ sections, '\n' ∉ s.title.toList)
    (hkeys : ∀ s ∈ sections, ∀ entry ∈ s.entries, IsKey entry.1) :
    (∃ values, parse (format sections) = .ok values ∧
        values.keys = ((sections.flatMap (·.entries)).map Prod.fst).eraseDups ∧
        ∀ key, values.get? key = (sections.flatMap (·.entries)).reverse.lookup key) ∧
      (Text.splitOn "\n" (format sections)).filter isDeclaration =
        (sections.flatMap (·.entries)).map declaration := by
  have hlegible : ∀ s ∈ sections, s.Legible := fun s hs => ⟨htitles s hs, hkeys s hs⟩
  refine ⟨⟨_, parse_format hlegible, ?_, fun key => ?_⟩, filter_isDeclaration_format hlegible⟩
  · exact OrderedMap.keys_ofList _
  · exact OrderedMap.get?_ofList _ key

/-- Values that look like text around them, a key with two values and a title with a carriage
return. -/
def trickySections : List Section :=
  [⟨"Paths\r", [("DIR", "C:\\new\nset(FAKE \"1\")\u2028"), ("FLAGS", "\\\"$ \r")]⟩,
    ⟨"none", []⟩, ⟨"# more", [("DIR", "")]⟩]

theorem entries_of_format_trickySections :
    (∀ s ∈ trickySections, '\n' ∉ s.title.toList) ∧
      (∀ s ∈ trickySections, ∀ entry ∈ s.entries, IsKey entry.1) ∧
      ∃ values, parse (format trickySections) = .ok values ∧ values.keys = ["DIR", "FLAGS"] ∧
        values.get? "DIR" = some "" ∧ values.get? "FLAGS" = some "\\\"$ \r" := by
  have htitles : ∀ s ∈ trickySections, '\n' ∉ s.title.toList := by decide
  have hkeys : ∀ s ∈ trickySections, ∀ entry ∈ s.entries, IsKey entry.1 := by decide
  obtain ⟨⟨values, hparse, hnames, hvalues⟩, -⟩ := entries_of_format htitles hkeys
  exact ⟨htitles, hkeys, values, hparse, hnames, hvalues "DIR", hvalues "FLAGS"⟩

end Descriptor

end Autogen
