import Autogen.Version
import Autogen.Proofs.Firsts
import Mathlib.Data.List.Nodup
import Mathlib.Data.List.Perm.Subperm

/-!
# Detected versions

Which text the version of a target is, and which disagreement among the linked targets is reported
on the way.

## Main definitions

* `firstGiven` — the first text of several that is given and not empty.
* `Graph.interfaceValue`, `Graph.carriers` — what the linked targets say about a version.
* `Graph.Detects` — a version by its precedence, with the conflict that is to be reported.

## Main statements

* `Graph.toList_interfaceValues` — each value with the first library that carries it.
* `Graph.detects_versions` — the major and the minor version of every target.
-/

namespace Autogen

/-- The first of the texts that is given and not empty; the empty text if there is none. -/
def firstGiven (candidates : List (Option String)) : String :=
  (candidates.findSome? given?).getD ""

theorem findSome?_given?_cons (first : Option String) (rest : List (Option String)) :
    (first :: rest).findSome? given? = (given? first).or (rest.findSome? given?) := by
  rw [List.findSome?_cons]
  cases given? first <;> rfl

namespace Graph

variable (g : Graph) (t : Target) (read : TargetProperties → Option String)

/-- What a library says in its interface, if it is a target of the graph. -/
def interfaceValue (library : String) : Option String :=
  (g.targets.get? library).bind fun id => read (g.target id).properties

/-- The values that are not empty, each with the library that carries it, in the order of the
links. -/
def carriers : List (String × String) :=
  t.linkLibraries.filterMap fun library =>
    (given? (g.interfaceValue read library)).map fun value => (value, library)

/-- Two of the linked targets carry different values. -/
def Disagree : Prop :=
  ∃ one ∈ g.carriers t read, ∃ other ∈ g.carriers t read, one.1 ≠ other.1

/-- The detected value is the explicit one, else the first one that a linked target carries, else
the first one of the project's. An error is recorded exactly if nothing is explicit and the linked
targets disagree: one that lists each of their values with the first library that carries it. -/
structure Detects (explicit : Option String) (property : String) (ofProject : List (Option String))
    (ds : Diagnostics) (detected : String × Diagnostics) : Prop where
  value : detected.1 =
    firstGiven (explicit :: t.linkLibraries.map (g.interfaceValue read) ++ ofProject)
  quiet : ¬(given? explicit = none ∧ g.Disagree t read) → detected.2 = ds
  conflict : given? explicit = none → g.Disagree t read →
    ∃ listed, AreFirsts Prod.fst (g.carriers t read) listed ∧
      detected.2 =
        ds.error ("Property " ++ property ++ " in the link interface of target \"" ++ t.name ++
        "\" has conflicting values: " ++
          Text.join ", " (listed.map fun pair => pair.2 ++ "=" ++ pair.1))

variable {g t read}

theorem given?_interfaceValue (library : String) :
    ((g.targets.get? library).bind fun id => given? (read (g.target id).properties)) =
      given? (g.interfaceValue read library) := by
  unfold interfaceValue
  cases g.targets.get? library <;> rfl

/-- Each value stands with the first library that carries it. -/
theorem toList_interfaceValues :
    (g.interfaceValues t read).toList = firstsBy Prod.fst (g.carriers t read) := by
  unfold interfaceValues carriers
  induction t.linkLibraries using List.reverseRecOn with
  | nil => rfl
  | append_singleton libraries library ih =>
    rw [List.foldl_append, List.foldl_cons, List.foldl_nil, List.filterMap_append]
    generalize libraries.foldl _ _ = values at ih ⊢
    generalize libraries.filterMap _ = carried at ih ⊢
    simp only [given?_interfaceValue]
    cases hgiven : given? (g.interfaceValue read library) with
    | none => simpa [hgiven] using ih
    | some value =>
      have hall (l : List (String × String)) : (l.filter fun _ => true).map id = l := by simp
      have hcollected : values.toList =
          (firstsBy Prod.fst ((carried.filter fun _ => true).map id)).map
            fun pair => (pair.1, pair.2) := by
        rw [hall, ih]
        exact (List.map_id _).symm
      have hstep := toList_giveFirst_of_collected hcollected (value, library)
      simpa [hgiven, Classifier.giveFirst] using hstep

theorem keys_interfaceValues :
    (g.interfaceValues t read).keys = ((g.carriers t read).map Prod.fst).eraseDups := by
  rw [OrderedMap.keys, toList_interfaceValues, map_firstsBy]

/-- The first value that counts is the first one that is carried. -/
theorem head?_keys_interfaceValues : (g.interfaceValues t read).keys.head? =
    (t.linkLibraries.map (g.interfaceValue read)).findSome? given? := by
  have hcarriers : ((g.carriers t read).map Prod.fst).head? =
      (t.linkLibraries.map (g.interfaceValue read)).findSome? given? := by
    rw [carriers, List.map_filterMap, List.head?_filterMap, List.findSome?_map]
    congr 1
    funext library
    simp [Function.comp_def]
  rw [keys_interfaceValues, ← hcarriers]
  cases (g.carriers t read).map Prod.fst with
  | nil => rfl
  | cons value rest => rw [List.eraseDups_cons, List.head?_cons, List.head?_cons]

/-- Several values count exactly if linked targets disagree. -/
theorem one_lt_length_keys_iff : 1 < (g.interfaceValues t read).keys.length ↔
    g.Disagree t read := by
  have hmem (value : String) : value ∈ (g.interfaceValues t read).keys ↔
      ∃ pair ∈ g.carriers t read, pair.1 = value := by
    rw [keys_interfaceValues, List.mem_eraseDups, List.mem_map]
  have hnodup : (g.interfaceValues t read).keys.Nodup := (g.interfaceValues t read).nodup_keys
  constructor
  · intro hseveral
    obtain ⟨one, hone, hfirst⟩ :=
      (hmem _).mp (List.getElem_mem (Nat.lt_trans Nat.zero_lt_one hseveral))
    obtain ⟨other, hother, hsecond⟩ := (hmem _).mp (List.getElem_mem hseveral)
    refine ⟨one, hone, other, hother, fun heq => ?_⟩
    have hplaces := (List.Nodup.getElem_inj_iff hnodup).mp (hfirst.symm.trans (heq.trans hsecond))
    omega
  · rintro ⟨one, hone, other, hother, hne⟩
    have hpair : [one.1, other.1] ⊆ (g.interfaceValues t read).keys := by
      simpa using ⟨(hmem _).mpr ⟨one, hone, rfl⟩, (hmem _).mpr ⟨other, hother, rfl⟩⟩
    have hdistinct : [one.1, other.1].Nodup := by simpa using hne
    exact (List.Nodup.subperm hdistinct hpair).length_le

/-- A version is detected by its precedence, and its conflicts are the real ones. -/
theorem detects_versionOf {explicit ofProject : Option String} {candidates : List (Option String)}
    (hproject : ofProject = candidates.findSome? given?) (property : String) (ds : Diagnostics) :
    g.Detects t read explicit property candidates ds
      (g.versionOf t explicit read property ofProject ds) := by
  unfold versionOf
  cases hexplicit : given? explicit with
  | some version =>
    have hvalue :
        firstGiven (explicit :: t.linkLibraries.map (g.interfaceValue read) ++ candidates) =
          version := by
      rw [firstGiven, List.cons_append, findSome?_given?_cons, hexplicit,
        Option.some_or, Option.getD_some]
    exact ⟨hvalue.symm, fun _ => rfl, fun hnone => by cases hexplicit.symm.trans hnone⟩
  | none =>
    refine ⟨?value, fun hquiet => ?quiet, fun _ hdisagree => ?conflict⟩
    case value =>
      have hcandidates :
          (explicit :: t.linkLibraries.map (g.interfaceValue read) ++ candidates).findSome?
              given? = (g.interfaceValues t read).keys.head?.or ofProject := by
        rw [List.cons_append, findSome?_given?_cons, hexplicit, Option.none_or,
          List.findSome?_append, head?_keys_interfaceValues, hproject]
      exact congrArg (Option.getD · "") hcandidates.symm
    case quiet =>
      exact if_neg (mt one_lt_length_keys_iff.mp fun h => hquiet ⟨hexplicit, h⟩)
    case conflict =>
      refine ⟨_, areFirsts_firstsBy Prod.fst (g.carriers t read), ?_⟩
      rw [← toList_interfaceValues]
      exact if_pos (one_lt_length_keys_iff.mpr hdisagree)

/-- The versions of every target: what is explicit, else what is linked, else what the project says,
of which the minor version of the core counts for the fifth major version only. -/
theorem detects_versions (g : Graph) (t : Target) (ds : Diagnostics) :
    g.Detects t (·.interfaceQtMajorVersion) t.properties.qtMajorVersion "QT_MAJOR_VERSION"
      [g.settings.qtVersionMajor, g.settings.qt5coreVersionMajor] ds (g.majorVersion t ds) ∧
    ∀ major, g.Detects t (·.interfaceQtMinorVersion) t.properties.qtMinorVersion "QT_MINOR_VERSION"
      ((if major = "5" then [g.settings.qt5coreVersionMinor]
        else []) ++ [g.settings.qtVersionMinor]) ds
      (g.minorVersion t major ds) := by
  refine ⟨?major, fun major => ?minor⟩
  case major =>
    apply detects_versionOf
    rw [findSome?_given?_cons, findSome?_given?_cons, List.findSome?_nil, Option.or_none]
  case minor =>
    apply detects_versionOf
    split
    · rw [List.singleton_append, findSome?_given?_cons, findSome?_given?_cons, List.findSome?_nil,
        Option.or_none]
    · rw [List.nil_append, findSome?_given?_cons, List.findSome?_nil,
        Option.or_none, Option.none_or]

end Graph

end Autogen
