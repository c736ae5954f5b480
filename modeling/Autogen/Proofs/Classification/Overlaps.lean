import Autogen.Proofs.Classification.Inputs
import Mathlib.Data.List.Nodup
import Mathlib.Data.Set.Basic

/-!
# Sources that lead to one file

Links let several sources of a target lead to one file. Each of them is looked at by its own path
and flags, while the lists of a classification have the file. What is said of the file in two lists
can therefore differ, but only if two of its sources differ.

## Main definitions

* `Classifier.Scans` — a code or header file that is scanned for the sake of a source.
* `Classifier.skippable` — the sources that speak for a file in the skip lists.
* `Classifier.LeavesIn` — a file that an enabled generator does not pass over.

## Main statements

* `Classifier.mem_of_classify` — what the lists have, told by the sources that lead to a file.
* `Classifier.leavesIn_of_scanned` — a file is scanned and passed over by all generators only where
  its sources have different flags.
* `Classifier.count_scanned` — a file is scanned twice only where two of its sources have different
  formats.
-/

namespace Autogen

open FileSystem

namespace Classifier

variable {c : Classifier} {fs : FileSystem} {place : SourceFile → String}
  {sources : List SourceFile}
  {found : Classification} {warnings : List String} {path : String}

section

variable [Environment]

/-- A file of a format that is scanned for the sake of a source with that format. -/
def Scans (c : Classifier) (fs : FileSystem) (sources : List SourceFile) (format : FileFormat)
    (path : String) : Prop :=
  ∃ s ∈ sources, Leads fs s path ∧ c.accepts s = true ∧ s.fileFormat = format

/-- The sources that speak for a file in the skip lists: all that lead to it, whatever else is made
of them. -/
def skippable (fs : FileSystem) (sources : List SourceFile) (path : String) : Set SourceFile :=
  {s | s ∈ sources ∧ Leads fs s path ∧ isSkippable s = true}

/-- What the lists of a classification have. -/
theorem mem_of_classify (h : c.classify fs sources = .ok (found, warnings)) (path : String) :
    (path ∈ found.sources ↔ c.Scans fs sources .code path) ∧
      (path ∈ found.headers ↔ c.Scans fs sources .header path) ∧
      (path ∈ found.mocSkip ↔ ∃ s ∈ skippable fs sources path, skipsMoc s = true) ∧
      (path ∈ found.uicSkip ↔ ∃ s ∈ skippable fs sources path, skipsUic s = true) := by
  obtain ⟨place, hplace, rfl⟩ := listing_of_classify h
  have haccepts {s : SourceFile} {p : Bool} (hs : (c.accepts s && p) = true) :
      c.isWanted s = true :=
    isWanted_of_isSkippable (isSkippable_of_accepts (Bool.and_eq_true_iff.mp hs).1)
  have hskips {s : SourceFile} {p : Bool} (hs : (isSkippable s && p) = true) :
      c.isWanted s = true :=
    isWanted_of_isSkippable (Bool.and_eq_true_iff.mp hs).1
  refine ⟨?_, ?_, ?_, ?_⟩
  · rw [listing, mem_pathsOf hplace fun s => haccepts]
    simp [Scans]
  · rw [listing, mem_pathsOf hplace fun s => haccepts]
    simp [Scans]
  · rw [listing, mem_pathsOf hplace fun s => hskips]
    simp only [skippable, Set.mem_ofPred_eq, Bool.and_eq_true, and_assoc]
  · rw [listing, mem_pathsOf hplace fun s => hskips]
    simp only [skippable, Set.mem_ofPred_eq, Bool.and_eq_true, and_assoc]

/-! ## Skip flags -/

/-- A file that the skip list of an enabled generator does not have. -/
def LeavesIn (c : Classifier) (found : Classification) (path : String) : Prop :=
  (c.moc = true ∧ path ∉ found.mocSkip) ∨ (c.uic = true ∧ path ∉ found.uicSkip)

/-- A file is missing from the skip list of an enabled generator exactly if the generator passes
over none of the sources that lead to the file. So is every file that is scanned and whose sources
have the same flags. -/
theorem leavesIn_of_scanned (h : c.classify fs sources = .ok (found, warnings))
    (hscanned : path ∈ found.sources ∨ path ∈ found.headers) :
    (c.LeavesIn found path ↔
      (c.moc = true ∧ ∀ s ∈ skippable fs sources path, skipsMoc s = false) ∨
        (c.uic = true ∧ ∀ s ∈ skippable fs sources path, skipsUic s = false)) ∧
    ((∀ s ∈ skippable fs sources path, ∀ s' ∈ skippable fs sources path,
        skipsMoc s = skipsMoc s' ∧ skipsUic s = skipsUic s') → c.LeavesIn found path) := by
  obtain ⟨hcode, hheader, hmoc, huic⟩ := mem_of_classify h path
  have hexact : c.LeavesIn found path ↔
      (c.moc = true ∧ ∀ s ∈ skippable fs sources path, skipsMoc s = false) ∨
        (c.uic = true ∧ ∀ s ∈ skippable fs sources path, skipsUic s = false) := by
    simp [LeavesIn, hmoc, huic]
  refine ⟨hexact, fun hsame => hexact.mpr ?_⟩
  obtain ⟨s, hs, hleads, haccepts⟩ : ∃ s ∈ sources, Leads fs s path ∧ c.accepts s = true := by
    rcases hscanned with hscanned | hscanned
    · obtain ⟨s, hs, hleads, haccepts, -⟩ := hcode.mp hscanned
      exact ⟨s, hs, hleads, haccepts⟩
    · obtain ⟨s, hs, hleads, haccepts, -⟩ := hheader.mp hscanned
      exact ⟨s, hs, hleads, haccepts⟩
  have hmem : s ∈ skippable fs sources path := ⟨hs, hleads, isSkippable_of_accepts haccepts⟩
  -- The source for whose sake the file is scanned speaks for all of its sources.
  have hscans : c.scans s = true := by
    simp only [accepts, isEligible, Bool.and_eq_true] at haccepts
    exact haccepts.1.2
  simp only [scans, Bool.or_eq_true, Bool.and_eq_true, Bool.not_eq_true'] at hscans
  rcases hscans with ⟨henabled, hleft⟩ | ⟨henabled, hleft⟩
  · exact .inl ⟨henabled, fun s' hs' => (hsame s' hs' s hmem).1.trans hleft⟩
  · exact .inr ⟨henabled, fun s' hs' => (hsame s' hs' s hmem).2.trans hleft⟩

end

section

attribute [local instance] Environment.plain

/-- A header, and a link to it that all generators are to pass over. -/
def skippedAlias : List SourceFile :=
  [{ path := "/w/src/a.h" }, { path := "/w/src/alias.h", skipAutomoc := true, skipAutouic := true }]

/-- A header, and a link to it that moc alone is to pass over. -/
def halfSkippedAlias : List SourceFile :=
  [{ path := "/w/src/a.h" }, { path := "/w/src/alias.h", skipAutomoc := true }]

theorem leavesIn_of_scanned_halfSkippedAlias :
    let c : Classifier := ⟨true, true, false, .old⟩
    let found : Classification := { headers := ["/w/src/a.h"], mocSkip := ["/w/src/a.h"] }
    c.classify aliasTree halfSkippedAlias = .ok (found, []) ∧ c.LeavesIn found "/w/src/a.h" := by
  intro c found
  have hclassify : c.classify aliasTree halfSkippedAlias = .ok (found, []) := by decide +kernel
  have hflags : ∀ s ∈ halfSkippedAlias, skipsUic s = false := by decide
  exact ⟨hclassify, (leavesIn_of_scanned hclassify (.inr List.mem_cons_self)).1.mpr
    (.inr ⟨rfl, fun s hs => hflags s hs.1⟩)⟩

/-- The link speaks for both generators, and still the header is scanned. -/
theorem not_leavesIn_skippedAlias :
    ∃ found,
      (⟨true, true, false, .old⟩ : Classifier).classify aliasTree skippedAlias = .ok (found, []) ∧
      "/w/src/a.h" ∈ found.headers ∧
      ¬(⟨true, true, false, .old⟩ : Classifier).LeavesIn found "/w/src/a.h" := by
  refine ⟨{ headers := ["/w/src/a.h"], mocSkip := ["/w/src/a.h"], uicSkip := ["/w/src/a.h"] },
    by decide +kernel, by decide, ?_⟩
  simp [LeavesIn]

end

/-! ## Files that are planned twice -/

theorem count_append_le_one {l l' : List String} (h : l.Nodup) (h' : l'.Nodup) :
    (l ++ l').count path ≤ 1 ↔ ¬(path ∈ l ∧ path ∈ l') := by
  have hleft : l.count path ≤ 1 := List.nodup_iff_count_le_one.mp h path
  have hright : l'.count path ≤ 1 := List.nodup_iff_count_le_one.mp h' path
  rw [List.count_append, ← List.count_pos_iff, ← List.count_pos_iff]
  omega

section

variable [Environment]

/-- The list of code files and the list of headers have every file once. -/
theorem nodup_of_classify (h : c.classify fs sources = .ok (found, warnings)) :
    found.sources.Nodup ∧ found.headers.Nodup := by
  obtain ⟨place, -, rfl⟩ := listing_of_classify h
  exact ⟨nodup_eraseDups _, nodup_eraseDups _⟩

/-- A file occurs once among the code files and headers together unless it is scanned in both roles.
No file does so if the links keep the formats that the sources have by their names. -/
theorem count_scanned (h : c.classify fs sources = .ok (found, warnings)) :
    (∀ path, (found.sources ++ found.headers).count path ≤ 1 ↔
      ¬(c.Scans fs sources .code path ∧ c.Scans fs sources .header path)) ∧
    ((∀ s ∈ sources, ∀ path, Leads fs s path → c.accepts s = true →
        ({ path } : SourceFile).fileFormat = s.fileFormat) →
      (found.sources ++ found.headers).Nodup) := by
  obtain ⟨hsources, hheaders⟩ := nodup_of_classify h
  have hexact (path : String) : (found.sources ++ found.headers).count path ≤ 1 ↔
      ¬(c.Scans fs sources .code path ∧ c.Scans fs sources .header path) := by
    obtain ⟨hcode, hheader, -, -⟩ := mem_of_classify h path
    rw [count_append_le_one hsources hheaders, hcode, hheader]
  refine ⟨hexact, fun hkept => List.nodup_iff_count_le_one.mpr fun path => (hexact path).mpr ?_⟩
  rintro ⟨⟨s, hs, hleads, haccepts, hcode⟩, s', hs', hleads', haccepts', hheader⟩
  have hformats : s.fileFormat = s'.fileFormat :=
    (hkept s hs path hleads haccepts).symm.trans (hkept s' hs' path hleads' haccepts')
  rw [hcode, hheader] at hformats
  cases hformats

end

section

attribute [local instance] Environment.plain

/-- A header with its link, and a code file. -/
def linkedSources : List SourceFile :=
  [{ path := "/w/src/a.h" }, { path := "/w/src/alias.h" }, { path := "/w/src/a.cpp" }]

theorem count_scanned_linkedSources :
    (⟨true, true, false, .old⟩ : Classifier).classify aliasTree linkedSources =
      .ok ({ sources := ["/w/src/a.cpp"], headers := ["/w/src/a.h"] }, []) ∧
    ["/w/src/a.cpp", "/w/src/a.h"].Nodup := by
  have hclassify : (⟨true, true, false, .old⟩ : Classifier).classify aliasTree linkedSources =
      .ok ({ sources := ["/w/src/a.cpp"], headers := ["/w/src/a.h"] }, []) := by
    decide +kernel
  have hplace : ∀ s ∈ linkedSources, canonicalPath aliasTree s.path none = .ok (aliasPlace s) := by
    decide +kernel
  have hformats : ∀ s ∈ linkedSources, ({ path := aliasPlace s } : SourceFile).fileFormat =
      s.fileFormat := by
    decide +kernel
  refine ⟨hclassify, (count_scanned hclassify).2 fun s hs path hleads _ => ?_⟩
  rw [← Except.ok.inj ((hplace s hs).symm.trans hleads.path)]
  exact hformats s hs

/-- A tree in which a link with the name of a code file leads to a header. -/
def crossTree : FileSystem :=
  ⟨OrderedMap.ofList [(["w"], .directory), (["w", "src"], .directory),
    (["w", "src", "a.cpp"], .link "a.h")]⟩

/-- The link is listed as a code file and the header as a header, and both lists have the header's
path. -/
theorem count_scanned_crossTree :
    ∃ found, (⟨true, false, false, .old⟩ : Classifier).classify crossTree
        [{ path := "/w/src/a.h" }, { path := "/w/src/a.cpp" }] = .ok (found, []) ∧
      ¬(found.sources ++ found.headers).count "/w/src/a.h" ≤ 1 :=
  ⟨{ sources := ["/w/src/a.h"], headers := ["/w/src/a.h"] }, by decide +kernel, by decide⟩

end

end Classifier

end Autogen
