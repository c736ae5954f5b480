import Autogen.Proofs.Classification.Inputs
import Autogen.Proofs.Layout
import Autogen.Proofs.Plan.Rerun
import Mathlib.Data.Set.Function

/-!
# Outputs of resource files

The files that a plan has generated for its resource files. Their names tell the directories and the
stems of the resource files, so two of them are equal only for resource files that differ in their
suffixes alone. A source has to end like a resource file, but a link of that name can lead to a file
of any other suffix.

## Main definitions

* `RccSettings.hashed` — the texts whose checksums are in the outputs of a plan.

## Main statements

* `Graph.entries_of_plan` — the entries of a plan are resource files with different canonical paths.
* `Graph.outputs_of_plan` — when two of them have the same output.
-/

namespace Autogen

open FileSystem

section

variable [Environment]

/-- The texts whose checksums are in the outputs of a plan. -/
def RccSettings.hashed (rcc : RccSettings) (roots : List (String × String)) : Set String :=
  (fun entry => checksumSeed entry.path roots) '' {entry | entry ∈ rcc.entries}

namespace Graph

variable {g : Graph} {fs : FileSystem} {lister : ResourceLister} {t : TargetId}
  {p : Plan} {rcc : RccSettings}

/-- The entries of a plan are resource files with different canonical paths, each with the output
that is named after its path. -/
theorem entries_of_plan (hplan : (g.plan fs lister t).result = .ok p) (hrcc : p.rcc = some rcc) :
    (rcc.entries.map (·.path)).Nodup ∧ ∀ entry ∈ rcc.entries,
      (∃ path, canonicalPath fs path none = .ok entry.path) ∧
        entry.output = resourceOutput (g.target t).buildDir entry.path
          (g.checksumRoots (g.target t)) := by
  obtain ⟨-, findings, found, hexamine, rfl⟩ := findings_of_plan hplan
  obtain ⟨-, -, -, -, -, warnings, hclassify, -⟩ := findings_of_examine (Prod.ext rfl hexamine)
  obtain ⟨binding, -, rfl⟩ := Option.map_eq_some_iff.mp hrcc
  have hentries :
      ((g.included t).rccSettings ((g.included t).target t) binding findings.classification
      found.resourceInputs findings.major).entries.map (·.path) =
        findings.classification.resources.map (·.path) := by
    rw [rccSettings, List.map_map]
    rfl
  refine ⟨?_, fun entry hentry => ?_⟩
  · rw [hentries]
    exact Classifier.nodup_resources_of_classify hclassify
  · obtain ⟨resource, hresource, rfl⟩ := List.mem_map.mp hentry
    obtain ⟨-, s, -, hpacks⟩ := Classifier.packs_of_classify hclassify resource hresource
    have hdir : ((g.included t).target t).buildDir = (g.target t).buildDir :=
      part_included Target.buildDir (fun _ _ => rfl) t
    have hroots : g.checksumRoots ((g.included t).target t) = g.checksumRoots (g.target t) :=
      part_included g.checksumRoots (fun _ _ => rfl) t
    refine ⟨⟨s.path, hpacks.path⟩, ?_⟩
    rw [← hdir, ← hroots]
    rfl

/-- Where checksums tell the texts that are hashed for a plan apart, the outputs of two entries are
equal exactly if the resource files have the same directory and the same stem. Two resource files
with the same suffix have different outputs. -/
theorem outputs_of_plan (hplan : (g.plan fs lister t).result = .ok p) (hrcc : p.rcc = some rcc)
    (hinj : Set.InjOn seedChecksum (rcc.hashed (g.checksumRoots (g.target t)))) :
    (rcc.entries.map (·.path)).Nodup ∧ ∀ a ∈ rcc.entries, ∀ b ∈ rcc.entries,
      (a.output = b.output ↔ (Path.ofString a.path).parent = (Path.ofString b.path).parent ∧
        (Path.ofString a.path).stem = (Path.ofString b.path).stem) ∧
      (a.path ≠ b.path → (Path.ofString a.path).suffix = (Path.ofString b.path).suffix →
        a.output ≠ b.output) := by
  obtain ⟨hnodup, hentries⟩ := entries_of_plan hplan hrcc
  refine ⟨hnodup, fun a ha b hb => ?_⟩
  obtain ⟨⟨path, hpath⟩, houtput⟩ := hentries a ha
  obtain ⟨⟨path', hpath'⟩, houtput'⟩ := hentries b hb
  have hexact : a.output = b.output ↔ (Path.ofString a.path).parent =
      (Path.ofString b.path).parent ∧
      (Path.ofString a.path).stem = (Path.ofString b.path).stem := by
    rw [houtput, houtput']
    exact resourceOutput_eq_iff (g.labelled_checksumRoots _) (startsAtRoot_canonicalPath hpath)
      (startsAtRoot_canonicalPath hpath') (fun heq => hinj ⟨a, ha, rfl⟩ ⟨b, hb, rfl⟩ heq) _
  refine ⟨hexact, fun hne hsuffix heq => hne ?_⟩
  obtain ⟨hparent, hstem⟩ := hexact.mp heq
  have hname : (Path.ofString a.path).name = (Path.ofString b.path).name := by
    rw [← Path.stem_append_suffix, ← Path.stem_append_suffix, hstem, hsuffix]
  have hsame : Path.ofString a.path = Path.ofString b.path :=
    Path.eq_of_parent_name (Path.named_ofString _) (Path.named_ofString _) hparent hname
  rw [← text_ofString_of_canonicalPath hpath, hsame, text_ofString_of_canonicalPath hpath']

end Graph

end

namespace Graph

attribute [local instance] Environment.plain

/-- A project with an application that packs two resource files. -/
def twoResources (second : String) : Graph where
  settings := { sourceDir := "/w/src", binaryDir := "/w/build", qtVersionMajor := some "5" }
  store := {
    sources := [{ path := "/w/src/icons.qrc", resourceInputs := some ["a.png"] },
      { path := second, resourceInputs := some ["b.png"] }]
    targets := [{
      name := "app"
      sourceDir := "/w/src"
      binaryDir := "/w/build"
      properties := { autorcc := true }
      sources := [0, 1] }] }
  targets := OrderedMap.ofList [("app", 0)]
  importedTargets := OrderedMap.ofList [("Qt5::rcc", ⟨"Qt5::rcc", "/opt/rcc"⟩)]

/-- A tree in which a link with the name of a resource file leads to a file of another suffix. -/
def renamedTree : FileSystem :=
  ⟨OrderedMap.ofList [(["w"], .directory), (["w", "src"], .directory),
    (["w", "src", "more.qrc"], .link "icons.xml")]⟩

/-- Two resource files of one name in different directories have different outputs. -/
theorem outputs_of_plan_twoResources :
    ∃ p, ((twoResources "/w/src/deep/icons.qrc").plan renamedTree declaredInputs 0).result = .ok p ∧
      ∃ rcc ∈ p.rcc, rcc.entries.map (·.path) = ["/w/src/icons.qrc", "/w/src/deep/icons.qrc"] ∧
        ∀ a ∈ rcc.entries, ∀ b ∈ rcc.entries, a.path ≠ b.path → a.output ≠ b.output := by
  let g := twoResources "/w/src/deep/icons.qrc"
  obtain ⟨p, hplan, rcc, hrcc, hpaths, hsuffixes, hchecksums⟩ :
      ∃ p, (g.plan renamedTree declaredInputs 0).result = .ok p ∧ ∃ rcc ∈ p.rcc,
        rcc.entries.map (·.path) = ["/w/src/icons.qrc", "/w/src/deep/icons.qrc"] ∧
        (∀ a ∈ rcc.entries, (Path.ofString a.path).suffix = ".qrc") ∧
        ∀ a ∈ rcc.entries, ∀ b ∈ rcc.entries,
          pathChecksum a.path (g.checksumRoots (g.target 0)) =
              pathChecksum b.path (g.checksumRoots (g.target 0)) →
            checksumSeed a.path (g.checksumRoots (g.target 0)) =
              checksumSeed b.path (g.checksumRoots (g.target 0)) := by
    decide +kernel
  have hinj : Set.InjOn seedChecksum (rcc.hashed (g.checksumRoots (g.target 0))) := by
    rintro _ ⟨a, ha, rfl⟩ _ ⟨b, hb, rfl⟩ heq
    exact hchecksums a ha b hb heq
  obtain ⟨-, hentries⟩ := outputs_of_plan hplan hrcc hinj
  exact ⟨p, hplan, rcc, hrcc, hpaths, fun a ha b hb hne =>
    (hentries a ha b hb).2 hne ((hsuffixes a ha).trans (hsuffixes b hb).symm)⟩

/-- Through the link, two resource files that differ in their suffixes alone have one output. -/
theorem outputs_of_plan_renamedTree :
    ∃ p, ((twoResources "/w/src/more.qrc").plan renamedTree declaredInputs 0).result = .ok p ∧
      ∃ rcc ∈ p.rcc,
        Set.InjOn seedChecksum (rcc.hashed ((twoResources "/w/src/more.qrc").checksumRoots
          ((twoResources "/w/src/more.qrc").target 0))) ∧
        ∃ a ∈ rcc.entries, ∃ b ∈ rcc.entries, a.path ≠ b.path ∧ a.output = b.output := by
  let g := twoResources "/w/src/more.qrc"
  obtain ⟨p, hplan, rcc, hrcc, hseeds, hcollide⟩ :
      ∃ p, (g.plan renamedTree declaredInputs 0).result = .ok p ∧ ∃ rcc ∈ p.rcc,
        (∀ a ∈ rcc.entries, checksumSeed a.path (g.checksumRoots (g.target 0)) =
          "CurrentSource/.") ∧
        ∃ a ∈ rcc.entries, ∃ b ∈ rcc.entries, a.path ≠ b.path ∧ a.output = b.output := by
    decide +kernel
  refine ⟨p, hplan, rcc, hrcc, ?_, hcollide⟩
  rintro _ ⟨a, ha, rfl⟩ _ ⟨b, hb, rfl⟩ -
  exact (hseeds a ha).trans (hseeds b hb).symm

end Graph

end Autogen
