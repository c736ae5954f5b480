import Autogen.Proofs.Classification
import Autogen.Proofs.Firsts

/-!
# Classification as a listing

A classification is found in one pass over the sources. What it holds in the end is told here
without the pass: each list has the sources that a test lets through, by their canonical paths, and
only the first source with each path counts.

## Main definitions

* `inputs` — the sources that no earlier plan generates.
* `Classifier.isEligible`, `Classifier.accepts` — which code and header files are scanned.
* `Classifier.listing`, `Classifier.ignored` — a classification and its warnings, list by list.
* `Classification.SamePaths` — two classifications that list the same files.

## Main statements

* `Classifier.note_eq` — what taking note of one file does to every list.
* `Classifier.classify_of_places` — a classification is the listing of the inputs.
* `Classifier.listing_of_classify` — so is whatever was classified.
* `Classifier.listing_perm` — the order of the sources does not matter for which files are listed.
* `Classifier.classify_eq_listing` — both, for all sources that have canonical paths.
-/

namespace Autogen

open FileSystem

/-- The sources that no earlier plan generates. -/
def inputs (sources : List SourceFile) : List SourceFile :=
  sources.filter fun s => !s.autogenOutput

theorem mem_inputs {s : SourceFile} {sources : List SourceFile} :
    s ∈ inputs sources ↔ s ∈ sources ∧ s.autogenOutput = false := by
  rw [inputs, List.mem_filter, Bool.not_eq_true']

namespace Classifier

variable {c : Classifier} {fs : FileSystem} {t : Tally} {s : SourceFile} {path : String}
  {place : SourceFile → String} {seen sources : List SourceFile}

/-! ## Tests for the lists -/

/-- Whether the skip lists tell about a file: a code, header or user interface file. -/
def isSkippable (s : SourceFile) : Bool :=
  s.fileFormat.scannable || s.fileFormat = .ui

/-- Whether a code or header file is to be scanned, if the policy has nothing against it. -/
def isEligible (c : Classifier) (s : SourceFile) : Bool :=
  s.fileFormat.scannable && c.scans s

/-- Whether a code or header file is scanned; the policy must accept a generated one. -/
def accepts (c : Classifier) (s : SourceFile) : Bool :=
  c.isEligible s && (!s.generated || c.policy.decision.accepted)

/-- Whether a resource file is packed. -/
def packs (c : Classifier) (s : SourceFile) : Bool :=
  s.fileFormat = .resource && c.rcc && !skipsRcc s

theorem packs_iff : c.packs s = true ↔ s.fileFormat = .resource ∧ c.rcc = true ∧
    s.skipAutogen = false ∧ s.skipAutorcc = false := by
  simp [packs, skipsRcc, and_assoc]

/-- Whether a user interface file has options of its own. -/
def hasUiOptions (s : SourceFile) : Bool :=
  s.fileFormat = .ui && !s.autouicOptions.isEmpty

/-- Whether a warning is due that a generated file is left out. -/
def warnsAbout (c : Classifier) (s : SourceFile) : Bool :=
  c.isEligible s && s.generated && c.policy = .warn

/-! ## The listing -/

/-- The canonical paths of the sources that a test lets through, in the order of their first
occurrences. -/
def pathsOf (place : SourceFile → String) (p : SourceFile → Bool) (sources : List SourceFile) :
    List String :=
  ((sources.filter p).map place).eraseDups

/-- A source as a resource file. -/
def resourceAt (place : SourceFile → String) (s : SourceFile) : Resource :=
  ⟨place s, s.generated, s.autorccOptions, s.resourceInputs⟩

/-- A source as a user interface file with options. -/
def uiOptionsAt (place : SourceFile → String) (s : SourceFile) : UiOptionsFile :=
  ⟨place s, s.autouicOptions⟩

/-- The classification of inputs with known canonical paths, list by list. -/
def listing (c : Classifier) (place : SourceFile → String) (sources : List SourceFile) :
    Classification where
  sources := pathsOf place (fun s => c.accepts s && s.fileFormat = .code) sources
  headers := pathsOf place (fun s => c.accepts s && s.fileFormat = .header) sources
  mocSkip := pathsOf place (fun s => isSkippable s && skipsMoc s) sources
  uicSkip := pathsOf place (fun s => isSkippable s && skipsUic s) sources
  generatedScanFiles := pathsOf place (fun s => c.accepts s && s.generated) sources
  resources := firstsBy (·.path) ((sources.filter c.packs).map (resourceAt place))
  uiOptionFiles :=
    if c.uic then
      (firstsBy (·.path) ((sources.filter hasUiOptions).map (uiOptionsAt place))).filter fun file =>
        file.path ∉ pathsOf place (fun s => isSkippable s && skipsUic s) sources
    else []

/-- The warnings about generated inputs that are left out. -/
def ignored (c : Classifier) (place : SourceFile → String) (sources : List SourceFile) :
    List String :=
  (sources.filter c.warnsAbout).map fun s => ignoredWarning (place s)

/-! ## One file -/

/-- What taking note of a code or header file does to the lists of files that are scanned. -/
theorem noteScannable_eq (c : Classifier) (t : Tally) (path : String)
    (hformat : s.fileFormat.scannable = true) :
    c.noteScannable t s path = { t with
      sources := if c.accepts s && s.fileFormat = .code then t.sources.insert path else t.sources
      headers := if c.accepts s && s.fileFormat = .header then t.headers.insert path else t.headers
      generatedScan :=
        if c.accepts s && s.generated then t.generatedScan.insert path else t.generatedScan
      warnings := if c.warnsAbout s then t.warnings ++ [ignoredWarning path] else t.warnings } := by
  have hcases : s.fileFormat = .code ∨ s.fileFormat = .header := by
    simpa [FileFormat.scannable] using hformat
  unfold noteScannable noteScanned accepts warnsAbout isEligible
  rcases hcases with hcase | hcase <;> cases c.scans s <;> cases s.generated <;> cases c.policy <;>
    simp [hcase, FileFormat.scannable, GeneratedFilePolicy.decision, PolicyDecision.accepted]

/-- What taking note of a file does to every list. -/
theorem note_eq (c : Classifier) (t : Tally) (s : SourceFile) (path : String) :
    c.note t s path = {
      sources := if c.accepts s && s.fileFormat = .code then t.sources.insert path else t.sources
      headers := if c.accepts s && s.fileFormat = .header then t.headers.insert path else t.headers
      mocSkip := if isSkippable s && skipsMoc s then t.mocSkip.insert path else t.mocSkip
      uicSkip := if isSkippable s && skipsUic s then t.uicSkip.insert path else t.uicSkip
      generatedScan :=
        if c.accepts s && s.generated then t.generatedScan.insert path else t.generatedScan
      resources :=
        if c.packs s then
          giveFirst t.resources path ⟨path, s.generated, s.autorccOptions, s.resourceInputs⟩
        else t.resources
      uiCandidates :=
        if hasUiOptions s then giveFirst t.uiCandidates path s.autouicOptions else t.uiCandidates
      warnings := if c.warnsAbout s then t.warnings ++ [ignoredWarning path] else t.warnings } := by
  unfold note
  -- Only resource files are packed and only forms have options of their own; code and headers come
  -- to `noteScannable_eq`.
  cases hformat : s.fileFormat with
  | resource =>
    simp only [noteResource, packs, accepts, isEligible, isSkippable, hasUiOptions, warnsAbout,
      FileFormat.scannable, hformat]
    cases c.rcc <;> cases skipsRcc s <;> simp
  | ui =>
    simp only [noteUi, noteSkips, packs, accepts, isEligible, isSkippable, hasUiOptions, warnsAbout,
      FileFormat.scannable, hformat]
    cases s.autouicOptions.isEmpty <;> simp
  | other =>
    simp [packs, accepts, isEligible, isSkippable, hasUiOptions, warnsAbout, FileFormat.scannable,
      hformat]
  | _ =>
    simp [noteScannable_eq, noteSkips, packs, isSkippable, hasUiOptions,
      FileFormat.scannable, hformat]

/-- A file whose canonical path is of no use is not taken note of. -/
theorem note_of_unwanted (t : Tally) (h : c.isWanted s = false) (path : String) :
    c.note t s path = t := by
  unfold isWanted at h
  unfold note
  cases hformat : s.fileFormat with
  | resource =>
    rw [hformat] at h
    rw [noteResource, if_pos]
    cases hrcc : c.rcc <;> simp_all
  | other => rfl
  | _ => simp [hformat] at h

/-! ## All files -/

/-- What a tally holds when some inputs were looked at, list by list. -/
structure Tally.Lists (c : Classifier) (place : SourceFile → String) (seen : List SourceFile)
    (t : Tally) : Prop where
  sources : t.sources.toList = pathsOf place (fun s => c.accepts s && s.fileFormat = .code) seen
  headers : t.headers.toList = pathsOf place (fun s => c.accepts s && s.fileFormat = .header) seen
  mocSkip : t.mocSkip.toList = pathsOf place (fun s => isSkippable s && skipsMoc s) seen
  uicSkip : t.uicSkip.toList = pathsOf place (fun s => isSkippable s && skipsUic s) seen
  generatedScan : t.generatedScan.toList = pathsOf place (fun s => c.accepts s && s.generated) seen
  resources : t.resources.toList =
    (firstsBy (·.path) ((seen.filter c.packs).map (resourceAt place))).map fun r => (r.path, r)
  uiCandidates : t.uiCandidates.toList =
    (firstsBy (·.path) ((seen.filter hasUiOptions).map (uiOptionsAt place))).map fun file =>
      (file.path, file.options)
  warnings : t.warnings = c.ignored place seen

/-- Taking note of one more input. -/
theorem Tally.Lists.note (h : t.Lists c place seen) (s : SourceFile) :
    (c.note t s (place s)).Lists c place (seen ++ [s]) := by
  rw [note_eq]
  constructor
  · exact toList_insert_of_collected h.sources s
  · exact toList_insert_of_collected h.headers s
  · exact toList_insert_of_collected h.mocSkip s
  · exact toList_insert_of_collected h.uicSkip s
  · exact toList_insert_of_collected h.generatedScan s
  · exact toList_giveFirst_of_collected h.resources s
  · exact toList_giveFirst_of_collected h.uiCandidates s
  · rw [ignored, List.filter_append, List.map_append, ← ignored, ← h.warnings]
    cases hwarns : c.warnsAbout s <;> simp [hwarns]

theorem lists_foldl (c : Classifier) (place : SourceFile → String) (seen : List SourceFile) :
    (seen.foldl (fun t s => c.note t s (place s)) {}).Lists c place seen := by
  induction seen using List.reverseRecOn with
  | nil => constructor <;> rfl
  | append_singleton seen s ih =>
    rw [List.foldl_append, List.foldl_cons, List.foldl_nil]
    exact ih.note s

/-- A tally amounts to the listing of the inputs that were looked at. -/
theorem Tally.Lists.conclude (h : t.Lists c place seen) : c.conclude t = c.listing place seen := by
  have hresources : t.resources.values = (c.listing place seen).resources := by
    rw [OrderedMap.values, h.resources, List.map_map]
    exact List.map_id _
  have hforms : c.uiOptionFiles t = (c.listing place seen).uiOptionFiles := by
    rw [uiOptionFiles, h.uiCandidates, List.filter_map, List.map_map, listing]
    refine if_congr Iff.rfl ?_ rfl
    have hkept : ((fun pair : String × List String => !t.uicSkip.contains pair.1) ∘
        fun file : UiOptionsFile => (file.path, file.options)) =
        fun file =>
          decide (file.path ∉ pathsOf place (fun s => isSkippable s && skipsUic s) seen) := by
      funext file
      simp [OrderedSet.contains, h.uicSkip]
    rw [hkept]
    exact List.map_id _
  rw [Classifier.conclude, h.sources, h.headers, h.mocSkip, h.uicSkip,
    h.generatedScan, hresources, hforms]
  rfl

/-- An input is taken note of by its canonical path. -/
theorem look_of_place [Environment] (t : Tally) (hinput : s.autogenOutput = false)
    (hplace : c.isWanted s = true → canonicalPath fs s.path none = .ok (place s)) :
    c.look fs t s = .ok (c.note t s (place s)) := by
  rw [look, hinput, Bool.false_or]
  cases hwanted : c.isWanted s with
  | false => rw [note_of_unwanted t hwanted]; rfl
  | true => rw [hplace hwanted]; rfl

/-- A classification is the listing of the inputs. -/
theorem classify_of_places [Environment] (hplace : ∀ s ∈ sources, s.autogenOutput = false →
    c.isWanted s = true →
      canonicalPath fs s.path none = .ok (place s)) :
    c.classify fs sources =
      .ok (c.listing place (inputs sources), c.ignored place (inputs sources)) := by
  -- The induction runs over some of the inputs, as places are given for these only.
  have hfold {rest : List SourceFile} (hrest : rest ⊆ inputs sources) (t : Tally) :
      rest.foldlM (c.look fs) t = .ok (rest.foldl (fun t s => c.note t s (place s)) t) := by
    induction rest generalizing t with
    | nil => rfl
    | cons s rest ih =>
      obtain ⟨hs, hinput⟩ := mem_inputs.mp (hrest List.mem_cons_self)
      rw [List.foldlM_cons, look_of_place t hinput (hplace s hs hinput), List.foldl_cons,
        ← ih (List.subset_of_cons_subset hrest)]
      rfl
  have hlists := lists_foldl c place (inputs sources)
  have hinputs : c.classify fs sources = c.classify fs (inputs sources) := classify_filter.symm
  rw [hinputs, classify, hfold (List.Subset.refl _), ← hlists.conclude, ← hlists.warnings]
  rfl

/-- What was classified is listed by the canonical paths that the inputs have. -/
theorem listing_of_classify [Environment] {found : Classification} {warnings : List String}
    (h : c.classify fs sources = .ok (found, warnings)) :
    ∃ place : SourceFile → String,
      (∀ s ∈ sources, s.autogenOutput = false → c.isWanted s = true →
        canonicalPath fs s.path none = .ok (place s)) ∧
      found = c.listing place (inputs sources) := by
  obtain ⟨tally, hfold, -⟩ := bind_eq_ok.mp h
  -- No input was skipped over in a run that returned, so each of them has been looked at from some
  -- tally.
  have hlooked {rest : List SourceFile} {t : Tally}
      (hrest : rest.foldlM (c.look fs) t = .ok tally) :
      ∀ s ∈ rest, ∃ t t', c.look fs t s = .ok t' := by
    induction rest generalizing t with
    | nil => exact fun s hs => absurd hs List.not_mem_nil
    | cons first rest ih =>
      rw [List.foldlM_cons] at hrest
      obtain ⟨next, hlook, hrest⟩ := bind_eq_ok.mp hrest
      intro s hs
      rcases List.mem_cons.mp hs with rfl | hs
      · exact ⟨t, next, hlook⟩
      · exact ih hrest s hs
  have hplaces : ∀ s ∈ sources, s.autogenOutput = false → c.isWanted s = true →
      canonicalPath fs s.path none = .ok ((canonicalPath fs s.path none).toOption.getD "") := by
    intro s hs hinput hwanted
    obtain ⟨t, t', hlook⟩ := hlooked hfold s hs
    rw [look, hinput, hwanted, if_neg (by simp)] at hlook
    cases hpath : canonicalPath fs s.path none with
    | ok path => rfl
    | error fault =>
      rw [hpath] at hlook
      cases hlook
  rw [classify_of_places hplaces] at h
  exact ⟨_, hplaces, (Prod.mk.inj (Except.ok.inj h)).1.symm⟩

/-! ## The order of the sources -/

end Classifier

/-- Two classifications that list the same files, each list in some order. -/
structure Classification.SamePaths (found found' : Classification) : Prop where
  sources : found.sources.Perm found'.sources
  headers : found.headers.Perm found'.headers
  mocSkip : found.mocSkip.Perm found'.mocSkip
  uicSkip : found.uicSkip.Perm found'.uicSkip
  generatedScanFiles : found.generatedScanFiles.Perm found'.generatedScanFiles
  resources : (found.resources.map (·.path)).Perm (found'.resources.map (·.path))
  uiOptionFiles : (found.uiOptionFiles.map (·.path)).Perm (found'.uiOptionFiles.map (·.path))

namespace Classifier

variable {c : Classifier} {fs : FileSystem} {place : SourceFile → String}
  {sources sources' : List SourceFile}

theorem pathsOf_perm (place : SourceFile → String) (p : SourceFile → Bool)
    (h : sources.Perm sources') :
    (pathsOf place p sources).Perm (pathsOf place p sources') :=
  eraseDups_perm ((h.filter p).map place)

theorem map_firstsBy_perm {α : Type} {entry : SourceFile → α} (key : α → String)
    (p : SourceFile → Bool) (h : sources.Perm sources') :
    ((firstsBy key ((sources.filter p).map entry)).map key).Perm
      ((firstsBy key ((sources'.filter p).map entry)).map key) := by
  rw [map_firstsBy, map_firstsBy]
  exact eraseDups_perm (((h.filter p).map entry).map key)

/-- Which files are listed does not depend on the order of the inputs. -/
theorem listing_perm (c : Classifier) (place : SourceFile → String) (h : sources.Perm sources') :
    (c.listing place sources).SamePaths (c.listing place sources') where
  sources := pathsOf_perm place _ h
  headers := pathsOf_perm place _ h
  mocSkip := pathsOf_perm place _ h
  uicSkip := pathsOf_perm place _ h
  generatedScanFiles := pathsOf_perm place _ h
  resources := map_firstsBy_perm _ _ h
  uiOptionFiles := by
    have hskips : ∀ path, path ∈ pathsOf place (fun s => isSkippable s && skipsUic s) sources ↔
        path ∈ pathsOf place (fun s => isSkippable s && skipsUic s) sources' := fun path =>
      (pathsOf_perm place _ h).mem_iff
    have hmap (kept : String → Bool) (files : List UiOptionsFile) :
        (files.filter fun file => kept file.path).map (·.path) = (files.map (·.path)).filter kept :=
      List.filter_map.symm
    unfold listing
    cases c.uic with
    | false => exact .refl []
    | true =>
      rw [if_pos rfl, if_pos rfl]
      simp only [hskips]
      rw [hmap fun path =>
        decide (path ∉ pathsOf place (fun s => isSkippable s && skipsUic s) sources'),
          hmap fun path =>
            decide (path ∉ pathsOf place (fun s => isSkippable s && skipsUic s) sources')]
      exact (map_firstsBy_perm _ _ h).filter _

/-- Where the inputs have canonical paths, a classification is their listing, with a warning for
each of them that the policy leaves out and warns about. In another order the sources have the same
files listed. -/
theorem classify_eq_listing [Environment] (hplace : ∀ s ∈ sources, s.autogenOutput = false →
      canonicalPath fs s.path none = .ok (place s)) :
    c.classify fs sources =
      .ok (c.listing place (inputs sources), c.ignored place (inputs sources)) ∧
      ∀ sources', sources.Perm sources' → ∃ found' warnings',
        c.classify fs sources' = .ok (found', warnings') ∧
          (c.listing place (inputs sources)).SamePaths found' := by
  refine ⟨classify_of_places fun s hs hinput _ => hplace s hs hinput, fun sources' hperm => ?_⟩
  have hplace' : ∀ s ∈ sources', s.autogenOutput = false → c.isWanted s = true →
      canonicalPath fs s.path none = .ok (place s) := fun s hs hinput _ =>
    hplace s (hperm.mem_iff.mpr hs) hinput
  exact ⟨_, _, classify_of_places hplace', listing_perm c place (hperm.filter _)⟩

attribute [local instance] Environment.plain

/-- A tree in which a header and a user interface file have a second name. -/
def aliasTree : FileSystem :=
  ⟨OrderedMap.ofList [(["w"], .directory), (["w", "src"], .directory),
    (["w", "src", "alias.h"], .link "a.h"), (["w", "src", "late.ui"], .link "form.ui")]⟩

/-- Sources of all kinds. The second names come with skip flags of their own, and so do two of the
resource files. -/
def mixedSources : List SourceFile := [
  { path := "/w/src/a.h" },
  { path := "/w/src/form.ui", autouicOptions := ["-tr", "i18n"] },
  { path := "/w/src/alias.h", skipAutomoc := true },
  { path := "/w/src/made.cpp", generated := true },
  { path := "/w/src/late.ui", skipAutouic := true },
  { path := "/w/src/plain.ui", autouicOptions := ["-x"] },
  { path := "/w/src/icons.qrc", resourceInputs := some ["icon.png"] },
  { path := "/w/src/raw.qrc", skipAutorcc := true },
  { path := "/w/src/old.qrc", skipAutogen := true },
  { path := "/w/build/mocs_compilation.cpp", generated := true, autogenOutput := true }]

/-- Where the second names lead. -/
def aliasPlace (s : SourceFile) : String :=
  if s.path = "/w/src/alias.h" then "/w/src/a.h"
  else if s.path = "/w/src/late.ui" then "/w/src/form.ui" else s.path

/-- The second name of the header adds to the skip list, and the one of the user interface file
takes its options away. -/
theorem classify_eq_listing_mixedSources :
    (∀ s ∈ mixedSources, s.autogenOutput = false →
      canonicalPath aliasTree s.path none = .ok (aliasPlace s)) ∧
    (⟨true, true, true, .warn⟩ : Classifier).classify aliasTree mixedSources = .ok
      ({ headers := ["/w/src/a.h"]
         mocSkip := ["/w/src/a.h"]
         uicSkip := ["/w/src/form.ui"]
         resources :=
           [{ path := "/w/src/icons.qrc", generated := false, declaredInputs := some ["icon.png"] }]
         uiOptionFiles := [⟨"/w/src/plain.ui", ["-x"]⟩] },
        [ignoredWarning "/w/src/made.cpp"]) ∧
    ∃ found' warnings', (⟨true, true, true, .warn⟩ : Classifier).classify aliasTree
      mixedSources.reverse =
        .ok (found', warnings') ∧ found'.headers = ["/w/src/a.h"] := by
  have hplace : ∀ s ∈ mixedSources, s.autogenOutput = false →
      canonicalPath aliasTree s.path none = .ok (aliasPlace s) := by
    decide +kernel
  obtain ⟨hlisting, hperm⟩ := classify_eq_listing (c := ⟨true, true, true, .warn⟩) hplace
  obtain ⟨found', warnings', hclassify, hsame⟩ := hperm _ (List.reverse_perm _).symm
  refine ⟨hplace, hlisting.trans (by decide +kernel), found', warnings', hclassify, ?_⟩
  have hheaders : ["/w/src/a.h"].Perm found'.headers := hsame.headers
  exact (List.perm_singleton.mp hheaders.symm)

end Classifier

end Autogen
