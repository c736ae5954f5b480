import Autogen.Proofs.Classification.Listing

/-!
# Where inputs come from

Everything that a classification lists comes from a source that no earlier plan generates, and is
listed by the canonical path of that source.

## Main definitions

* `Leads` — an input that leads to a path.
* `Classification.scanned` — the paths of the files that are scanned.
* `Packs` — a resource file that stands for an input.

## Main statements

* `Classifier.mem_pathsOf` — what is listed are the files that sources lead to.
* `Classifier.exists_of_mem_scanned` — the files that are scanned are inputs.
* `Classifier.packs_of_classify` — the resource files of a classification stand for inputs.
* `Classifier.nodup_resources_of_classify` — no two of them have the same path.
* `Classifier.options_of_classify` — the user interface files of a classification have options.
-/

namespace Autogen

open FileSystem

variable [Environment]

/-- An input that leads to a path. -/
structure Leads (fs : FileSystem) (s : SourceFile) (path : String) : Prop where
  input : s.autogenOutput = false
  path : canonicalPath fs s.path none = .ok path

/-- The paths of the files that are scanned. -/
def Classification.scanned (found : Classification) : List String :=
  found.sources ++ found.headers ++ found.generatedScanFiles

namespace Classifier

variable {c : Classifier} {fs : FileSystem} {place : SourceFile → String}
  {sources : List SourceFile}
  {found : Classification} {warnings : List String} {path : String}

/-! ## Sources that are listed -/

omit [Environment] in
theorem isWanted_of_isSkippable {s : SourceFile} (h : isSkippable s = true) :
    c.isWanted s = true := by
  unfold isSkippable at h
  unfold isWanted
  revert h
  cases s.fileFormat <;> simp [FileFormat.scannable]

omit [Environment] in
theorem isWanted_of_packs {s : SourceFile} (h : c.packs s = true) : c.isWanted s = true := by
  obtain ⟨hformat, hrcc, hautogen, hautorcc⟩ := packs_iff.mp h
  unfold isWanted
  rw [hformat]
  simp [hrcc, skipsRcc, hautogen, hautorcc]

omit [Environment] in
theorem isSkippable_of_accepts {s : SourceFile} (h : c.accepts s = true) :
    isSkippable s = true := by
  simp only [accepts, isEligible, Bool.and_eq_true] at h
  rw [isSkippable, h.1.1, Bool.true_or]

/-- A file is listed if a source that passes the test leads to it. -/
theorem mem_pathsOf (hplace : ∀ s ∈ sources, s.autogenOutput = false → c.isWanted s = true →
      canonicalPath fs s.path none = .ok (place s)) {p : SourceFile → Bool}
    (hp : ∀ s, p s = true → c.isWanted s = true) :
    path ∈ pathsOf place p (inputs sources) ↔ ∃ s ∈ sources, Leads fs s path ∧ p s = true := by
  rw [pathsOf, List.mem_eraseDups, List.mem_map]
  constructor
  · rintro ⟨s, hs, rfl⟩
    obtain ⟨hs, htest⟩ := List.mem_filter.mp hs
    obtain ⟨hs, hinput⟩ := mem_inputs.mp hs
    exact ⟨s, hs, ⟨hinput, hplace s hs hinput (hp s htest)⟩, htest⟩
  · rintro ⟨s, hs, ⟨hinput, hpath⟩, htest⟩
    rw [hplace s hs hinput (hp s htest)] at hpath
    exact ⟨s, List.mem_filter.mpr ⟨mem_inputs.mpr ⟨hs, hinput⟩, htest⟩, Except.ok.inj hpath⟩

/-- The files that are scanned are inputs. -/
theorem exists_of_mem_scanned (h : c.classify fs sources = .ok (found, warnings)) {path : String}
    (hpath : path ∈ found.scanned) :
    ∃ s ∈ sources, s.autogenOutput = false ∧ canonicalPath fs s.path none = .ok path := by
  obtain ⟨place, hplace, rfl⟩ := listing_of_classify h
  have hlisted {p : SourceFile → Bool}
      (hmem : path ∈ pathsOf place (fun s => c.accepts s && p s) (inputs sources)) :
      ∃ s ∈ sources, s.autogenOutput = false ∧ canonicalPath fs s.path none = .ok path := by
    obtain ⟨s, hs, hleads, -⟩ := (mem_pathsOf hplace fun s hs =>
      isWanted_of_isSkippable (isSkippable_of_accepts (Bool.and_eq_true_iff.mp hs).1)).mp hmem
    exact ⟨s, hs, hleads.input, hleads.path⟩
  rw [Classification.scanned, List.mem_append, List.mem_append] at hpath
  rcases hpath with (hsource | hheader) | hgenerated
  · exact hlisted hsource
  · exact hlisted hheader
  · exact hlisted hgenerated

/-! ## Resource files -/

/-- A resource file that stands for an input, which rcc does not pass over. -/
structure Packs (fs : FileSystem) (s : SourceFile) (resource : Resource) : Prop where
  input : s.autogenOutput = false
  path : canonicalPath fs s.path none = .ok resource.path
  declared : resource.declaredInputs = s.resourceInputs
  unskipped : s.skipAutogen = false ∧ s.skipAutorcc = false

/-- The resource files of a classification are to be packed and stand for inputs. -/
theorem packs_of_classify (h : c.classify fs sources = .ok (found, warnings)) :
    ∀ resource ∈ found.resources, c.rcc = true ∧ ∃ s ∈ sources, Packs fs s resource := by
  obtain ⟨place, hplace, rfl⟩ := listing_of_classify h
  intro resource hresource
  obtain ⟨s, hs, rfl⟩ := List.mem_map.mp (mem_of_mem_firstsBy hresource)
  obtain ⟨hs, hpacks⟩ := List.mem_filter.mp hs
  obtain ⟨hs, hinput⟩ := mem_inputs.mp hs
  obtain ⟨-, hrcc, hunskipped⟩ := packs_iff.mp hpacks
  exact ⟨hrcc, s, hs, hinput, hplace s hs hinput (isWanted_of_packs hpacks), rfl, hunskipped⟩

/-- No two resource files of a classification have the same path. -/
theorem nodup_resources_of_classify (h : c.classify fs sources = .ok (found, warnings)) :
    (found.resources.map (·.path)).Nodup := by
  obtain ⟨place, -, rfl⟩ := listing_of_classify h
  simp only [listing, map_firstsBy]
  exact nodup_eraseDups _

/-- The resource files of a classification have absolute paths. -/
theorem startsAtRoot_of_classify (h : c.classify fs sources = .ok (found, warnings)) :
    ∀ resource ∈ found.resources, startsAtRoot resource.path = true := by
  intro resource hresource
  obtain ⟨-, s, -, hpacks⟩ := packs_of_classify h resource hresource
  exact startsAtRoot_canonicalPath hpacks.path

/-! ## User interface files -/

/-- The user interface files of a classification have options. -/
theorem options_of_classify (h : c.classify fs sources = .ok (found, warnings)) :
    ∀ file ∈ found.uiOptionFiles, file.options ≠ [] := by
  obtain ⟨place, -, rfl⟩ := listing_of_classify h
  intro file hfile
  simp only [listing] at hfile
  split at hfile
  · obtain ⟨s, hs, rfl⟩ := List.mem_map.mp (mem_of_mem_firstsBy (List.mem_of_mem_filter hfile))
    have hoptions := (List.mem_filter.mp hs).2
    simp only [hasUiOptions, Bool.and_eq_true, Bool.not_eq_true',
      List.isEmpty_eq_false_iff] at hoptions
    exact hoptions.2
  · cases hfile

end Classifier

end Autogen
