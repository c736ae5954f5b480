import Autogen.Proofs.Graph.Names
import Autogen.Proofs.Plan.DryRun
import Autogen.Proofs.Plan.Independence
import Autogen.Proofs.Project.Loading

/-!
# What a run fails for

Planning goes on where a tool is not found, where a resource file has no declared inputs or where a
source group has no folders; all that is said in the diagnostics. A run fails for three things: a
path that has no canonical form, a name that is taken, and a descriptor that cannot be written.

## Main definitions

* `Graph.PathFails` — why a path that planning a target looks at has no canonical form.
* `Graph.versionTexts` — the texts of the version that a target is planned for.
* `Graph.Reported` — what is said about a target by a run that returns.

## Main statements

* `Graph.pathFails_of_plan` — what planning fails for.
* `Graph.emit_fault` — what carrying out a plan fails for.
* `Graph.run_of_mapping` — what a run fails for, and what it says where it does not fail.
-/

namespace Autogen

/-- A text that is a number if it consists of digits. -/
def Numeric (text : String) : Prop :=
  Text.allDigits text = true → ∃ n, numberOfDigits text = .ok n

instance (text : String) : Decidable (Numeric text) :=
  inferInstanceAs (Decidable (Text.allDigits text = true → ∃ n, numberOfDigits text = .ok n))

/-- A version whose texts are numbers or no digits at all can be compared. -/
theorem versionAtLeast_of_numeric {major minor : String} (hmajor : Numeric major)
    (hminor : Numeric minor) (wantMajor wantMinor : Int) :
    ∃ answer, versionAtLeast major minor wantMajor wantMinor = .ok answer := by
  unfold versionAtLeast
  split
  · exact ⟨_, rfl⟩
  · rename_i hdigits
    simp only [Bool.not_eq_true, Bool.not_eq_false', Bool.and_eq_true] at hdigits
    obtain ⟨m, hm⟩ := hmajor hdigits.1
    obtain ⟨n, hn⟩ := hminor hdigits.2
    rw [hm, hn]
    exact ⟨_, rfl⟩

/-- The generators that are enabled. -/
def TargetProperties.enabledTools (p : TargetProperties) : List Tool :=
  (if p.automoc then [.moc] else []) ++ (if p.autouic then [.uic] else []) ++
    (if p.autorcc then [.rcc] else [])

namespace Graph

variable {g g' : Graph} {t : TargetId} {fs : FileSystem} {p : Plan}
  {x x' : Target} {ds : Diagnostics}

/-! ## Versions -/

/-- The texts of the version that a target is planned for. -/
def versionTexts (g : Graph) (t : TargetId) : List String :=
  let major := g.majorVersion (g.target t) { target := some (g.target t).name }
  [major.1, (g.minorVersion (g.target t) major.1 major.2).1]

theorem versionOf_congr (htargets : g'.targets = g.targets)
    (hproperties : ∀ u, (g'.target u).properties = (g.target u).properties)
    (hlibraries : x'.linkLibraries = x.linkLibraries) (hname : x'.name = x.name)
    (explicit : Option String) (read : TargetProperties → Option String) (property : String)
    (ofProject : Option String) (ds : Diagnostics) :
    g'.versionOf x' explicit read property ofProject ds =
      g.versionOf x explicit read property ofProject ds := by
  unfold versionOf propagated interfaceValues
  simp only [htargets, hproperties, hlibraries, hname]

theorem versions_congr (hsettings : g'.settings = g.settings) (htargets : g'.targets = g.targets)
    (hproperties : ∀ u, (g'.target u).properties = (g.target u).properties)
    (hown : x'.properties = x.properties) (hlibraries : x'.linkLibraries = x.linkLibraries)
    (hname : x'.name = x.name) :
    g'.majorVersion x' = g.majorVersion x ∧ g'.minorVersion x' = g.minorVersion x := by
  refine ⟨funext fun ds => ?_, funext fun major => funext fun ds => ?_⟩
  · unfold majorVersion
    rw [versionOf_congr htargets hproperties hlibraries hname, hown, hsettings]
  · unfold minorVersion
    rw [versionOf_congr htargets hproperties hlibraries hname, hown, hsettings]

/-- The version of a target has nothing to do with its directory of generated headers and with what
is remembered. -/
theorem versions_included [Environment] {store : Store}
    (hbare : store.bare = (g.included t).store.bare) :
    ({ g.included t with store } : Graph).majorVersion ((g.included t).target t) =
        g.majorVersion (g.target t) ∧
      ({ g.included t with store } : Graph).minorVersion ((g.included t).target t) =
        g.minorVersion (g.target t) := by
  have hproperties (u : TargetId) :
      (({ g.included t with store } : Graph).target u).properties = (g.target u).properties :=
    (Store.part_eq_of_bare Target.properties (fun _ => rfl) hbare u).trans
      (part_included Target.properties (fun _ _ => rfl) u)
  exact versions_congr rfl rfl hproperties (part_included Target.properties (fun _ _ => rfl) t)
    (part_included Target.linkLibraries (fun _ _ => rfl) t)
    (part_included Target.name (fun _ _ => rfl) t)

/-- What is said about a version is added to what was said before, a conflict among the linked
targets included. -/
theorem versionOf_continues (g : Graph) (x : Target) (explicit : Option String)
    (read : TargetProperties → Option String) (property : String) (ofProject : Option String)
    (ds : Diagnostics) : ds.Continues (g.versionOf x explicit read property ofProject ds).2 ∧
      (given? explicit = none → 1 < (g.interfaceValues x read).keys.length →
        (g.versionOf x explicit read property ofProject ds).2.HasError
          (conflictMessage x.name property (g.interfaceValues x read))) := by
  unfold versionOf propagated
  cases given? explicit with
  | some version => exact ⟨.refl ds, fun h => by cases h⟩
  | none =>
    simp only
    split
    · exact ⟨.record ds .error _, fun _ _ => ds.hasError_error _⟩
    · rename_i hagree
      exact ⟨.refl ds, fun _ hconflict => absurd hconflict hagree⟩

theorem majorVersion_continues (g : Graph) (x : Target) (ds : Diagnostics) :
    ds.Continues (g.majorVersion x ds).2 ∧ (given? x.properties.qtMajorVersion = none →
      1 < (g.interfaceValues x (·.interfaceQtMajorVersion)).keys.length →
      (g.majorVersion x ds).2.HasError
        (conflictMessage x.name "QT_MAJOR_VERSION"
          (g.interfaceValues x (·.interfaceQtMajorVersion)))) :=
  versionOf_continues g x x.properties.qtMajorVersion (·.interfaceQtMajorVersion)
    "QT_MAJOR_VERSION" _ ds

theorem minorVersion_continues (g : Graph) (x : Target) (major : String) (ds : Diagnostics) :
    ds.Continues (g.minorVersion x major ds).2 ∧ (given? x.properties.qtMinorVersion = none →
      1 < (g.interfaceValues x (·.interfaceQtMinorVersion)).keys.length →
        (g.minorVersion x major ds).2.HasError
          (conflictMessage x.name "QT_MINOR_VERSION"
            (g.interfaceValues x (·.interfaceQtMinorVersion)))) :=
  versionOf_continues g x x.properties.qtMinorVersion (·.interfaceQtMinorVersion)
    "QT_MINOR_VERSION" _ ds

/-! ## Planning -/

/-- Why a path that planning a target looks at has no canonical form. -/
inductive PathFails [Environment] (g : Graph) (fs : FileSystem) (t : TargetId) : PathFault → Prop
  | source {fault : PathFault} {s : SourceFile} (hs : s ∈ g.store.inputs t)
      (h : canonicalPath fs s.path none = .error fault) : PathFails g fs t fault
  | token {fault : PathFault} {token : String}
      (htoken : token ∈ (g.target t).properties.autogenTargetDepends)
        (hunknown : g.isKnown token = false)
      (h : canonicalPath fs token (some (g.target t).sourceDir) = .error fault) :
      PathFails g fs t fault
  | input {fault : PathFault} {s : SourceFile} {file : String} {inputs : List String}
      (hs : s ∈ g.store.inputs t) (hfile : canonicalPath fs s.path none = .ok file)
      (hinputs : s.resourceInputs = some inputs)
      (h : DependencyRequest.InputFault fs file inputs fault) : PathFails g fs t fault
  | unencodable {s : SourceFile} {file : String} (hs : s ∈ g.store.inputs t)
      (hfile : canonicalPath fs s.path none = .ok file)
      (h : Text.isEncodable (checksumSeed file (g.checksumRoots (g.target t))) = false) :
      PathFails g fs t (.spelling .unencodable)

/-- Sources are examined in vain where one of them has no canonical path or the version cannot be
compared. -/
theorem fault_of_examine [Environment] {sources : List SourceFile} {fault : PlanFault}
    (h : (g.examine fs x sources ds).2 = .error fault) :
    (∃ cause, fault = .path cause ∧ (x.classifier g.settings).classify fs sources = .error cause) ∨
      ∃ cause, versionAtLeast (g.majorVersion x ds).1
        (g.minorVersion x (g.majorVersion x ds).1 (g.majorVersion x ds).2).1 5 8 =
          .error cause := by
  unfold examine at h
  simp only at h
  split at h
  · rename_i cause hclassify
    cases h
    exact .inl ⟨cause, rfl, hclassify⟩
  · right
    -- Behind the classification only `mocSettings` can fail, on the version.
    cases hmoc : x.properties.automoc with
    | false =>
      rw [hmoc] at h
      simp [bindEnabled, pure, Except.pure] at h
    | true =>
      rw [hmoc] at h
      simp only [bindEnabled, if_true, Option.mapM_some] at h
      split at h
      · rename_i cause hsettings
        rcases bind_eq_error.mp hsettings with hsettings | ⟨_, -, hpure⟩
        · rcases bind_eq_error.mp hsettings with hversion | ⟨_, -, hpure⟩
          · exact ⟨cause, hversion⟩
          · cases hpure
        · cases hpure
      · cases h

/-- The sources that are planned with a target are examined where its directory of generated headers
is known. -/
theorem plan_examined [Environment] (hg : g.WellFormed) (hfresh : g.Fresh) (t : TargetId) :
    ∃ store : Store, store.bare = (g.included t).store.bare ∧
      (g.included t).plannedSources t =
        ((g.included t).store.ownSources t, { g.included t with store }) := by
  have hincluded : g.Grows {t} ∅ (g.included t) := included_grows g t
  obtain ⟨store, hplanned, hbare, -⟩ :=
    plannedSources_eq (hg.grows hincluded) (fresh_included (t := t) hg hfresh) t
  exact ⟨store, hbare, hplanned⟩

theorem mem_inputs_of_included [Environment] {s : SourceFile}
    (hs : s ∈ (g.included t).store.ownSources t) (hinput : s.autogenOutput = false) :
    s ∈ g.store.inputs t := by
  rw [← inputs_included g t t]
  exact List.mem_filter.mpr ⟨hs, by simp [hinput]⟩

theorem checksumRoots_included [Environment] (g : Graph) (t : TargetId) :
    (g.included t).checksumRoots ((g.included t).target t) = g.checksumRoots (g.target t) := by
  rw [checksumRoots, checksumRoots, part_included Target.sourceDir (fun _ _ => rfl) t,
    part_included Target.binaryDir (fun _ _ => rfl) t]
  rfl

/-- Where the texts of the version are numbers, the sources of a target are examined in vain only
for a path that has no canonical form. -/
theorem pathFails_of_examine [Environment] (hversions : ∀ text ∈ g.versionTexts t, Numeric text)
    {store : Store} (hbare : store.bare = (g.included t).store.bare) {fault : PlanFault}
    (h : (({ g.included t with store } : Graph).examine fs ((g.included t).target t)
      ((g.included t).store.ownSources t) { target := some (g.target t).name }).2 = .error fault) :
    ∃ cause, fault = .path cause ∧ g.PathFails fs t cause := by
  rcases fault_of_examine h with ⟨cause, rfl, hclassify⟩ | ⟨cause, hversion⟩
  · obtain ⟨s, hs, hinput, hpath⟩ := Classifier.exists_of_classify_eq_error hclassify
    exact ⟨cause, rfl, .source (mem_inputs_of_included hs hinput) hpath⟩
  · obtain ⟨hmajor, hminor⟩ := versions_included hbare
    rw [hmajor, hminor] at hversion
    have hmajorText := hversions _ List.mem_cons_self
    have hminorText := hversions _ (List.mem_cons_of_mem _ List.mem_cons_self)
    obtain ⟨answer, hanswer⟩ := versionAtLeast_of_numeric hmajorText hminorText 5 8
    cases hanswer.symm.trans hversion

/-- Once the sources are examined, no plan is concluded only for a path that has no canonical
form. -/
theorem pathFails_of_concluded [Environment] {f : Findings}
    (hpacks : ∀ resource ∈ f.classification.resources,
      ∃ s ∈ (g.included t).store.ownSources t, Classifier.Packs fs s resource) {fault : PlanFault}
    (h : (g.included t).concluded ((g.included t).target t) f
      ((((g.included t).target t).dependencyRequest f.rccBinding declaredInputs).collect
        (g.included t) fs
        f.classification) = .error fault) :
    ∃ cause, fault = .path cause ∧ g.PathFails fs t cause := by
  obtain ⟨cause, rfl, hcollect | ⟨rfl, resource, hresource, hseed⟩⟩ := concluded_eq_error h
  · refine ⟨cause, rfl, ?_⟩
    rcases DependencyRequest.exists_of_collect_fault hcollect with
      ⟨token, htoken, hunknown, hpath⟩ | ⟨resource, hresource, hinputs⟩
    · have hproperties : ((g.included t).target t).properties = (g.target t).properties :=
        part_included Target.properties (fun _ _ => rfl) t
      have hsourceDir : ((g.included t).target t).sourceDir = (g.target t).sourceDir :=
        part_included Target.sourceDir (fun _ _ => rfl) t
      exact .token (hproperties ▸ htoken) hunknown (hsourceDir ▸ hpath)
    · obtain ⟨s, hs, hpacked⟩ := hpacks resource hresource
      obtain ⟨inputs, hdeclared, hfails⟩ := DependencyRequest.inputFault_of_inputsOf rfl hinputs
      exact .input (mem_inputs_of_included hs hpacked.input) hpacked.path
        (hpacked.declared.symm.trans hdeclared) hfails
  · obtain ⟨s, hs, hpacked⟩ := hpacks resource hresource
    rw [checksumRoots_included] at hseed
    exact ⟨_, rfl, .unencodable (mem_inputs_of_included hs hpacked.input) hpacked.path hseed⟩

/-- Planning a target for which a generator is enabled fails for a path that has no canonical form,
and for nothing else where the texts of the version are numbers. -/
theorem pathFails_of_plan [Environment] (hg : g.WellFormed) (hfresh : g.Fresh)
    (henabled : (g.target t).properties.anyGeneratorEnabled = true)
    (hversions : ∀ text ∈ g.versionTexts t, Numeric text) {fault : PlanFault}
    (h : (g.plan fs declaredInputs t).result = .error fault) :
    ∃ cause, fault = .path cause ∧ g.PathFails fs t cause := by
  obtain ⟨store, hbare, hplanned⟩ := plan_examined hg hfresh t
  rw [plan_of_enabled fs declaredInputs henabled] at h
  rcases hexamine : ({ g.included t with store } : Graph).examine fs ((g.included t).target t)
      ((g.included t).store.ownSources t) { target := some (g.target t).name }
        with ⟨noted, cause | f⟩
  · rw [(planRegistered_of_fault declaredInputs hplanned hexamine).2] at h
    cases h
    exact pathFails_of_examine hversions hbare (congrArg Prod.snd hexamine)
  · obtain ⟨-, hresult, -⟩ := planRegistered_of_findings declaredInputs hplanned hexamine
    obtain ⟨-, -, -, -, -, warnings, hclassify, -⟩ := findings_of_examine hexamine
    refine pathFails_of_concluded (fun resource hresource => ?_) (hresult.symm.trans h)
    exact (Classifier.packs_of_classify hclassify resource hresource).2

/-! ## Diagnostics -/

/-- What is said about a planned target: libraries that do not agree on a version, tools that are
not found, versions that have no tools and resource files without declared inputs are errors. A
minor version that is no number is not an error, it only keeps the command that prints definitions
from being used. -/
structure Reported (g : Graph) (t : TargetId) (p : Plan) (ds : Diagnostics) : Prop where
  versions : [p.qtVersionMajor, p.qtVersionMinor] = g.versionTexts t
  majorConflict : given? (g.target t).properties.qtMajorVersion = none →
    let values := g.interfaceValues (g.target t) (·.interfaceQtMajorVersion)
    1 < values.keys.length →
    ds.HasError (conflictMessage (g.target t).name "QT_MAJOR_VERSION" values)
  minorConflict : given? (g.target t).properties.qtMinorVersion = none →
    let values := g.interfaceValues (g.target t) (·.interfaceQtMinorVersion)
    1 < values.keys.length →
    ds.HasError (conflictMessage (g.target t).name "QT_MINOR_VERSION" values)
  tools : ∀ tool ∈ (g.target t).properties.enabledTools, ∀ fault,
    (g.bindTool (g.target t).name tool p.qtVersionMajor).fault = some fault →
    ds.HasError fault.message
  oddMajor : QtMajor.ofText? p.qtVersionMajor = none →
    ∀ tool ∈ (g.target t).properties.enabledTools,
    ds.HasError ("The " ++ tool.feature ++ " feature supports only Qt 4 and Qt 5 (" ++
      (g.target t).name ++ ")")
  oddMinor : Text.allDigits p.qtVersionMinor = false → ∀ moc, p.moc = some moc →
    moc.predefsCommand = []
  undeclared : ∀ resource ∈ p.classification.resources, resource.generated = false →
    resource.declaredInputs = none →
      ds.HasError (listingMessage resource.path "no input list is declared for this file")

theorem Reported.continues {ds' : Diagnostics} (h : g.Reported t p ds) (hfirst : ds.Continues ds') :
    g.Reported t p ds' where
  versions := h.versions
  majorConflict hnone hconflict := (h.majorConflict hnone hconflict).continues hfirst
  minorConflict hnone hconflict := (h.minorConflict hnone hconflict).continues hfirst
  tools tool htool fault hfault := (h.tools tool htool fault hfault).continues hfirst
  oddMajor hodd tool htool := (h.oddMajor hodd tool htool).continues hfirst
  oddMinor := h.oddMinor
  undeclared resource hresource hgenerated hnone :=
    (h.undeclared resource hresource hgenerated hnone).continues hfirst

/-- The faults of all enabled tools are found. -/
theorem mem_bindingFaults {tool : Tool} {major : String} {fault : ToolFault}
    (htool : tool ∈ x.properties.enabledTools)
    (hfault : (g.bindTool x.name tool major).fault = some fault) :
    fault.message ∈ bindingFaults [
      g.bindEnabled x x.properties.automoc .moc major,
      g.bindEnabled x x.properties.autouic .uic major,
      g.bindEnabled x x.properties.autorcc .rcc major] := by
  have hbound : some (g.bindTool x.name tool major) ∈ [
      g.bindEnabled x x.properties.automoc .moc major,
      g.bindEnabled x x.properties.autouic .uic major,
      g.bindEnabled x x.properties.autorcc .rcc major] := by
    simp only [TargetProperties.enabledTools, List.mem_append, List.mem_ite_nil_right,
      List.mem_singleton] at htool
    rcases htool with (⟨henabled, rfl⟩ | ⟨henabled, rfl⟩) | ⟨henabled, rfl⟩ <;>
      simp [bindEnabled, henabled]
  exact List.mem_filterMap.mpr ⟨_, hbound, by simp [hfault]⟩

/-- A version without tools is a fault of every enabled tool. -/
theorem fault_of_oddMajor {major : String} (h : QtMajor.ofText? major = none)
    (name : String) (tool : Tool) :
    ∃ fault, (g.bindTool name tool major).fault = some fault ∧
      fault.message = "The " ++ tool.feature ++ " feature supports only Qt 4 and Qt 5 (" ++
        name ++ ")" := by
  unfold bindTool
  rw [h]
  refine ⟨_, rfl, ?_⟩
  simp [ToolFault.message, String.append_assoc]

/-- A minor version that is no number is below every version. -/
theorem predefsCommand_of_oddMinor {major minor : String} {binding : Option ToolBinding}
    {moc : MocSettings} (hodd : Text.allDigits minor = false)
    (h : binding.mapM (fun b => g.mocSettings x b major minor) = .ok (some moc)) :
    moc.predefsCommand = [] := by
  have hbelow : versionAtLeast major minor 5 8 = .ok false := by simp [versionAtLeast, hodd]
  cases binding with
  | none => cases h
  | some b =>
    rw [Option.mapM_some] at h
    obtain ⟨settings, hsettings, h⟩ := bind_eq_ok.mp h
    obtain rfl := Option.some.inj (Except.ok.inj h)
    unfold mocSettings at hsettings
    rw [hbelow] at hsettings
    cases hsettings
    rfl

/-- What is said while the sources of a target are examined: that linked targets do not agree on a
version, and which tools are not found. -/
theorem said_of_examine [Environment] {store : Store}
    (hbare : store.bare = (g.included t).store.bare) {sources : List SourceFile}
    {noted : Diagnostics} {f : Findings}
    (hexamine : ({ g.included t with store } : Graph).examine fs ((g.included t).target t) sources
      { target := some (g.target t).name } = (noted, .ok f)) :
    g.versionTexts t = [f.major, f.minor] ∧
      (given? (g.target t).properties.qtMajorVersion = none →
        let values := g.interfaceValues (g.target t) (·.interfaceQtMajorVersion)
        1 < values.keys.length →
          noted.HasError (conflictMessage (g.target t).name "QT_MAJOR_VERSION" values)) ∧
      (given? (g.target t).properties.qtMinorVersion = none →
        let values := g.interfaceValues (g.target t) (·.interfaceQtMinorVersion)
        1 < values.keys.length →
          noted.HasError (conflictMessage (g.target t).name "QT_MINOR_VERSION" values)) ∧
      ∀ tool ∈ (g.target t).properties.enabledTools, ∀ fault,
        (g.bindTool (g.target t).name tool f.major).fault = some fault →
        noted.HasError fault.message := by
  obtain ⟨hfmajor, hfminor, -, -, -, warnings, -, hnoted⟩ := findings_of_examine hexamine
  obtain ⟨hmajor, hminor⟩ := versions_included hbare
  rw [hmajor, hminor] at hnoted hfminor
  rw [hmajor] at hfmajor
  have htexts : g.versionTexts t = [f.major, f.minor] := by
    rw [hfmajor, hfminor]
    rfl
  obtain ⟨-, hmajorConflict⟩ := majorVersion_continues g (g.target t)
    { target := some (g.target t).name }
  generalize g.majorVersion (g.target t) { target := some (g.target t).name } = major at *
  obtain ⟨hmajorFirst, hminorConflict⟩ := minorVersion_continues g (g.target t) major.1 major.2
  generalize g.minorVersion (g.target t) major.1 major.2 = minor at *
  -- What is said about the versions comes first, then the sources that are left out and then the
  -- tools.
  have hminorFirst : minor.2.Continues noted := by
    rw [hnoted]
    exact (Diagnostics.Continues.warnings _ _).trans (.errors _ _)
  refine ⟨htexts, fun hnone hconflict => ?_, fun hnone hconflict =>
    ?_, fun tool htool fault hfault => ?_⟩
  · exact (hmajorConflict hnone hconflict).continues (hmajorFirst.trans hminorFirst)
  · exact (hminorConflict hnone hconflict).continues hminorFirst
  · have hproperties : ((g.included t).target t).properties = (g.target t).properties :=
      part_included Target.properties (fun _ _ => rfl) t
    have hname : ((g.included t).target t).name = (g.target t).name :=
      part_included Target.name (fun _ _ => rfl) t
    have hbind : ({ g.included t with store } : Graph).bindTool = g.bindTool := rfl
    rw [hfmajor, ← hname, ← hbind] at hfault
    rw [← hproperties] at htool
    rw [hnoted]
    exact Diagnostics.hasError_errors
      (mem_bindingFaults (g := { g.included t with store }) htool hfault)

/-- A plan that is made is reported on. -/
theorem reported_of_plan [Environment] (hg : g.WellFormed) (hfresh : g.Fresh)
    (h : (g.plan fs declaredInputs t).result = .ok p) :
    g.Reported t p (g.plan fs declaredInputs t).diagnostics := by
  have hplan := plan_of_enabled fs declaredInputs (enabled_of_plan h)
  have hincluded : g.Grows {t} ∅ (g.included t) := included_grows g t
  rw [hplan] at h ⊢
  obtain ⟨store, noted, f, hbare, hexamine, hcollected, rfl, hsaid, -⟩ :=
    exists_findings (hg.grows hincluded) (fresh_included hg hfresh) h
  obtain ⟨-, hfminor, hrcc, hmoc, -, warnings, hclassify, -⟩ := findings_of_examine hexamine
  obtain ⟨htexts, hmajorConflict, hminorConflict, htools⟩ := said_of_examine hbare hexamine
  rw [hsaid]
  -- Resource files that are not listed come last, so what was said before stays said.
  have hfirst := Diagnostics.Continues.errors noted
    ((((g.included t).target t).dependencyRequest f.rccBinding declaredInputs).collect
      (g.included t) fs
      f.classification).1.failures
  refine ⟨htexts.symm, fun hnone hconflict => (hmajorConflict hnone hconflict).continues hfirst,
    fun hnone hconflict => (hminorConflict hnone hconflict).continues hfirst,
    fun tool htool fault hfault => (htools tool htool fault hfault).continues hfirst,
    fun hodd tool htool => ?_, fun hodd moc hsome =>
      ?_, fun resource hresource hgenerated hnone => ?_⟩
  · obtain ⟨fault, hfault, hmessage⟩ := fault_of_oddMajor hodd (g.target t).name tool
    exact hmessage ▸ (htools tool htool fault hfault).continues hfirst
  · have hsettings : f.moc = some moc := hsome
    have hodd' : Text.allDigits f.minor = false := hodd
    rw [hfminor] at hodd'
    rw [hsettings] at hmoc
    exact predefsCommand_of_oddMinor hodd' hmoc
  · have hmem : resource ∈ f.classification.resources := hresource
    obtain ⟨hpacked, -⟩ := Classifier.packs_of_classify hclassify resource hmem
    have hbinding : f.rccBinding ≠ none := by
      have hrcc' : ((g.included t).target t).properties.autorcc = true := hpacked
      rw [hrcc, hrcc', bindEnabled, if_pos rfl]
      simp
    exact Diagnostics.hasError_errors
      (DependencyRequest.mem_failures_collect hcollected rfl hbinding hmem hgenerated hnone)

/-! ## Carrying out a plan -/

/-- Carrying out a plan fails for a name that is taken and for a descriptor that cannot be
written. -/
theorem emit_fault [Environment] (hg : g.WellFormed)
    (hdelimiter : g.settings.sourceGroupDelimiter ≠ "") {fault : RunFault}
    (h : (g.emit fs t p ds).result = .error fault) :
    fault = .graph (.alreadyDefined p.autogenTargetName) ∧ g.isTaken p.autogenTargetName = true ∨
      ∃ cause, fault = .descriptor cause := by
  have hclean : g.Grows {t} p.outputs (g.prepared t p ds).graph := prepared_grows g t p ds
  have hnone : (registerFiles t (g.prepared t p ds) p.generatedFiles).2 = none :=
    registerFiles_returns (hg.grows hclean) (.inl (hclean.settings ▸ hdelimiter))
  have hnames := sameNames_registerFiles t p.generatedFiles (g.prepared t p ds)
  rw [emit_eq] at h
  generalize registerFiles t (g.prepared t p ds) p.generatedFiles = out at *
  obtain ⟨e, stop⟩ := out
  obtain rfl : stop = none := hnone
  simp only at h
  split at h
  · rename_i htaken
    cases h
    exact .inl ⟨rfl, (hnames.isTaken p.autogenTargetName).symm.trans htaken⟩
  · cases hwrite : (Descriptor.write fs (Path.ofString p.infoFile) p.render).2 with
    | error cause =>
      rw [hwrite] at h
      cases h
      exact .inr ⟨cause, rfl⟩
    | ok done =>
      rw [hwrite] at h
      cases h

/-- The name of a source group that has no folders is an error, once for every generated file. -/
def GroupsReported (g : Graph) (p : Plan) (ds : Diagnostics) : Prop :=
  ∀ file ∈ p.generatedFiles, ∀ name, g.settings.groupFor file.tool = some name →
    groupFolders g.settings.sourceGroupDelimiter name = [] → ds.HasError (groupMessage name)

theorem groupFile_reports {e : Effects} {file : GeneratedFile} (h : (groupFile e file).2 = none)
    {name : String} (hname : e.graph.settings.groupFor file.tool = some name)
    (hfolders : groupFolders e.graph.settings.sourceGroupDelimiter name = []) :
    (groupFile e file).1.diagnostics.HasError (groupMessage name) := by
  unfold groupFile at h ⊢
  simp only [hname] at h ⊢
  split at h
  · cases h
  · rename_i hdelimiter
    simp only [if_neg hdelimiter, hfolders, List.isEmpty_nil, if_true]
    exact e.diagnostics.hasError_error _

theorem registerFiles_reports {e : Effects} {files : List GeneratedFile}
    (h : (registerFiles t e files).2 = none) {file : GeneratedFile} (hfile : file ∈ files)
    {name : String} (hname : e.graph.settings.groupFor file.tool = some name)
    (hfolders : groupFolders e.graph.settings.sourceGroupDelimiter name = []) :
    (registerFiles t e files).1.diagnostics.HasError (groupMessage name) := by
  induction files generalizing e with
  | nil => cases hfile
  | cons first rest ih =>
    have hregister := (registerSource_keeps e.graph t first.path).groups.1
    rw [registerFiles] at h ⊢
    have hreports
        (hnone : (groupFile { e with graph := e.graph.registerSource t first.path } first).2 =
          none) :
        (groupFile { e with graph := e.graph.registerSource t first.path } first).1.graph.settings =
          e.graph.settings ∧ (file = first →
            (groupFile { e with graph := e.graph.registerSource t first.path }
              first).1.diagnostics.HasError
              (groupMessage name)) := by
      refine ⟨(groupFile_keeps hnone).groups.1.trans hregister, ?_⟩
      rintro rfl
      exact groupFile_reports hnone (hregister ▸ hname) (hregister ▸ hfolders)
    generalize groupFile { e with graph := e.graph.registerSource t first.path } first =
      out at h hreports ⊢
    rcases out with ⟨next, _ | fault⟩
    · obtain ⟨hsettings, hfirst⟩ := hreports rfl
      rcases List.mem_cons.mp hfile with heq | hlater
      · exact (hfirst heq).continues (registerFiles_continues t next rest)
      · exact ih h hlater (hsettings ▸ hname) (hsettings ▸ hfolders)
    · cases h

theorem groupsReported_of_emit [Environment] {path : Path}
    (h : (g.emit fs t p ds).result = .ok path) :
    g.GroupsReported p (g.emit fs t p ds).diagnostics := by
  obtain ⟨e, hfiles, -, -, -, heq⟩ := emit_eq_ok h
  intro file hfile name hname hfolders
  have hreports := registerFiles_reports (congrArg Prod.snd hfiles) hfile hname hfolders
  rw [hfiles] at hreports
  rw [heq]
  exact hreports

/-- A plan is carried out under a name that is free. -/
theorem free_of_emit [Environment] {path : Path} (h : (g.emit fs t p ds).result = .ok path) :
    g.isTaken p.autogenTargetName = false := by
  obtain ⟨e, hfiles, hfree, -⟩ := emit_eq_ok h
  have hnames := sameNames_registerFiles t p.generatedFiles (g.prepared t p ds)
  rw [hfiles] at hnames
  exact (hnames.isTaken p.autogenTargetName).symm.trans hfree

/-! ## Running -/

/-- What a run of a target fails for: a descriptor that cannot be written, or not even spelled, a
name of the step that is taken, and a path that has no canonical form. -/
inductive RunFails [Environment] (g : Graph) (fs : FileSystem) (t : TargetId) : RunFault → Prop
  | unwritable (path : Path) (cause : FileSystem.Fault) :
      RunFails g fs t (.descriptor (.unwritable path cause))
  | misspelled (cause : FileSystem.SpellingFault) : RunFails g fs t (.descriptor (.spelling cause))
  | taken (h : g.isTaken (g.target t).autogenName = true) :
      RunFails g fs t (.graph (.alreadyDefined (g.target t).autogenName))
  | path {cause : PathFault} (h : g.PathFails fs t cause) : RunFails g fs t (.plan (.path cause))

/-- A run that returns has found the name of the step free and reports everything else. -/
theorem reported_of_run [Environment] (hg : g.WellFormed) (hfresh : g.Fresh) {r : RunResult}
    (hr : (g.run fs declaredInputs t).result = .ok r) :
    g.isTaken (g.target t).autogenName = false ∧
      g.Reported t r.plan r.diagnostics ∧ g.GroupsReported r.plan r.diagnostics := by
  have hgrows := plan_grows hg hfresh fs declaredInputs t
  obtain ⟨hplan, hdone, heq⟩ := run_emits hr
  obtain ⟨-, hname⟩ := plan_eq_ok hplan
  have hfree := free_of_emit hdone
  have hgroups := groupsReported_of_emit hdone
  have hfirst := emit_continues (g.plan fs declaredInputs t).graph fs t r.plan
    (g.plan fs declaredInputs t).diagnostics
  rw [(sameNames_plan g fs declaredInputs t).isTaken, hname] at hfree
  rw [GroupsReported, hgrows.settings] at hgroups
  rw [heq] at hr
  rw [congrArg RunResult.diagnostics (Except.ok.inj hr).symm]
  exact ⟨hfree, (reported_of_plan hg hfresh hplan).continues hfirst, hgroups⟩

/-- A run of a target for which a generator is enabled fails for few things. -/
theorem runFails_of_run [Environment] (hg : g.WellFormed) (hfresh : g.Fresh)
    (hdelimiter : g.settings.sourceGroupDelimiter ≠ "")
    (henabled : (g.target t).properties.anyGeneratorEnabled = true)
    (hversions : ∀ text ∈ g.versionTexts t, Numeric text) {fault : RunFault}
    (hfault : (g.run fs declaredInputs t).result = .error fault) : g.RunFails fs t fault := by
  have hgrows := plan_grows hg hfresh fs declaredInputs t
  rcases run_graph g fs declaredInputs t with ⟨cause, hplan, heq⟩ | ⟨p, hplan, heq⟩
  · rw [heq] at hfault
    cases hfault
    obtain ⟨path, rfl, hfails⟩ := pathFails_of_plan hg hfresh henabled hversions hplan
    exact .path hfails
  · obtain ⟨-, hname⟩ := plan_eq_ok hplan
    rw [heq] at hfault
    simp only at hfault
    cases hdone : ((g.plan fs declaredInputs t).graph.emit fs t p
        (g.plan fs declaredInputs t).diagnostics).result with
    | ok path =>
      rw [hdone] at hfault
      cases hfault
    | error cause =>
      rw [hdone] at hfault
      cases hfault
      rcases emit_fault (hg.grows hgrows) (hgrows.settings ▸ hdelimiter) hdone
        with ⟨rfl, htaken⟩ | ⟨cause, rfl⟩
      · rw [(sameNames_plan g fs declaredInputs t).isTaken, hname] at htaken
        rw [hname]
        exact .taken htaken
      · cases cause
        · exact .unwritable _ _
        · exact .misspelled _

/-- A run of a target for which a generator is enabled fails for few things. Everything else that
goes wrong is said in the diagnostics of a run that returns. -/
theorem run_faults [Environment] (hg : g.WellFormed) (hfresh : g.Fresh)
    (hdelimiter : g.settings.sourceGroupDelimiter ≠ "")
    (henabled : (g.target t).properties.anyGeneratorEnabled = true)
    (hversions : ∀ text ∈ g.versionTexts t, Numeric text) (fs : FileSystem) :
    (∀ r, (g.run fs declaredInputs t).result = .ok r → g.isTaken (g.target t).autogenName = false ∧
        g.Reported t r.plan r.diagnostics ∧ g.GroupsReported r.plan r.diagnostics) ∧
      ∀ fault, (g.run fs declaredInputs t).result = .error fault → g.RunFails fs t fault :=
  ⟨fun _ hr => reported_of_run hg hfresh hr,
    fun _ hfault => runFails_of_run hg hfresh hdelimiter henabled hversions hfault⟩

/-- What a run fails for in the graph of a project description, and what it says where it does not
fail. -/
theorem run_of_mapping [Environment] {fields : Fields} (h : ofMapping fields = .ok g)
    (ht : t ∈ g.candidates) (hversions : ∀ text ∈ g.versionTexts t, Numeric text)
    (fs : FileSystem) :
    (∀ r, (g.run fs declaredInputs t).result = .ok r → g.isTaken (g.target t).autogenName = false ∧
        g.Reported t r.plan r.diagnostics ∧ g.GroupsReported r.plan r.diagnostics) ∧
      ∀ fault, (g.run fs declaredInputs t).result = .error fault → g.RunFails fs t fault := by
  have hloaded := loaded_of_mapping h
  exact run_faults hloaded.wellFormed hloaded.fresh hloaded.delimiter (List.mem_filter.mp ht).2
    hversions fs

attribute [local instance] Environment.plain

/-- A project with a Qt version that has no tools and a source group without folders. The step of
its first target has the name of the second one, the third one depends on a file in a home directory
that is not known, the name of the fourth one is no part of a path, and the last one has a resource
file without declared inputs. -/
def troubledProject : Fields :=
  [(.string "project", .map [(.string "source_dir", .string "/w/src"),
      (.string "binary_dir", .string "/w/build"), (.string "qt_version_major", .string "6"),
      (.string "automoc_source_group", .string "\\")]),
    (.string "targets", .map [
      (.string "a", .map [(.string "automoc", .bool true)]),
      (.string "a_autogen", .map []),
      (.string "b", .map [(.string "automoc", .bool true),
        (.string "autogen_target_depends", .list [.string "~nobody"])]),
      (.string "c\x00", .map [(.string "automoc", .bool true)]),
      (.string "d", .map [(.string "automoc", .bool true), (.string "autorcc", .bool true),
        (.string "sources", .list [.string "d.qrc"])])])]

/-- The troubled project is loaded, three of its targets cannot be run, and the last one can. -/
theorem exists_troubledProject : ∃ g, ofMapping troubledProject = .ok g ∧
    g.candidates = [0, 2, 3, 4] ∧
    (∀ t ∈ g.candidates, ∀ text ∈ g.versionTexts t, Numeric text) ∧
    (g.run plainTree declaredInputs 0).result = .error (.graph (.alreadyDefined "a_autogen")) ∧
    (g.run plainTree declaredInputs 2).result = .error (.plan (.path .noHome)) ∧
    (g.run plainTree declaredInputs 3).result = .error (.descriptor (.spelling .embeddedNul)) ∧
    ∃ r, (g.run plainTree declaredInputs 4).result = .ok r := by
  have hloads : ∃ g, ofMapping troubledProject = .ok g ∧ g.candidates = [0, 2, 3, 4] ∧
      (∀ t ∈ g.candidates, ∀ text ∈ g.versionTexts t, Numeric text) ∧
      (g.run plainTree declaredInputs 0).result = .error (.graph (.alreadyDefined "a_autogen")) ∧
      (g.run plainTree declaredInputs 2).result = .error (.plan (.path .noHome)) ∧
      (g.run plainTree declaredInputs 3).result = .error (.descriptor (.spelling .embeddedNul)) ∧
      g.settings.configurations = [] ∧
      ∃ p, (g.plan plainTree declaredInputs 4).result = .ok p ∧ g.Achievable plainTree p := by
    decide +kernel
  obtain ⟨g, hproject, hcandidates, hversions, hname, hpath, hspelling, hnone, p, hplan,
    hachievable⟩ := hloads
  have hloaded := loaded_of_mapping hproject
  obtain ⟨r, hr, -⟩ := run_of_achievable hloaded.wellFormed hloaded.fresh
    (names_of_declared (by simp [hnone])) hloaded.delimiter hplan hachievable
  exact ⟨g, hproject, hcandidates, hversions, hname, hpath, hspelling, r, hr⟩

/-- Not only descriptors that cannot be written make runs fail. -/
theorem run_troubledProject : ∃ g, ofMapping troubledProject = .ok g ∧ g.candidates = [0, 2, 3, 4] ∧
    (g.run plainTree declaredInputs 0).result = .error (.graph (.alreadyDefined "a_autogen")) ∧
    (g.run plainTree declaredInputs 2).result = .error (.plan (.path .noHome)) ∧
    (g.run plainTree declaredInputs 3).result = .error (.descriptor (.spelling .embeddedNul)) := by
  obtain ⟨g, hproject, hcandidates, -, hname, hpath, hspelling, -⟩ := exists_troubledProject
  exact ⟨g, hproject, hcandidates, hname, hpath, hspelling⟩

/-- What goes wrong for the last target of the troubled project is said, and the path that the third
one depends on makes its run fail. -/
theorem run_of_mapping_troubledProject : ∃ g r, ofMapping troubledProject = .ok g ∧
    (∀ t ∈ [2, 4], t ∈ g.candidates ∧ ∀ text ∈ g.versionTexts t, Numeric text) ∧
    (g.run plainTree declaredInputs 4).result = .ok r ∧
    g.Reported 4 r.plan r.diagnostics ∧ g.GroupsReported r.plan r.diagnostics ∧
    (g.run plainTree declaredInputs 2).result = .error (.plan (.path .noHome)) ∧
    g.RunFails plainTree 2 (.plan (.path .noHome)) := by
  obtain ⟨g, hproject, hcandidates, hversions, -, hpath, -, r, hr⟩ := exists_troubledProject
  have htargets : ∀ t ∈ [2, 4], t ∈ g.candidates ∧ ∀ text ∈ g.versionTexts t, Numeric text := by
    intro t ht
    have hmem : t ∈ g.candidates := by
      rw [hcandidates]
      have hlisted : ∀ t ∈ [2, 4], t ∈ [0, 2, 3, 4] := by decide
      exact hlisted t ht
    exact ⟨hmem, hversions t hmem⟩
  obtain ⟨hlast, hlastVersions⟩ := htargets 4 (by decide)
  obtain ⟨hthird, hthirdVersions⟩ := htargets 2 (by decide)
  obtain ⟨-, hreported, hgroups⟩ := (run_of_mapping hproject hlast hlastVersions plainTree).1 r hr
  exact ⟨g, r, hproject, htargets, hr, hreported, hgroups, hpath,
    (run_of_mapping hproject hthird hthirdVersions plainTree).2 _ hpath⟩

end Graph

end Autogen
