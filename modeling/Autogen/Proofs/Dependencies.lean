import Autogen.Dependencies
import Autogen.Proofs.FileSystem.Canonical

/-!
# Collecting dependencies

What a generation step depends on is collected from the names that are known and from canonical
paths. After growth the paths are the same; where more names are known, some of them stand for
themselves that stood for files before. The collection ends early at a path without a canonical
form, and nowhere else.

## Main definitions

* `Target.face` — what a plan is made from in a target.
* `ResourceLister.Steady` — a way to list inputs that growth does not change.
* `DependencyRequest.Alike` — requests that ask for the same.
* `DependencyRequest.Extends` — a collection to which something may have been added.
* `DependencyRequest.InputFault` — why the declared inputs of a resource file are not found.

## Main statements

* `DependencyRequest.collect_matches` — what is collected in a tree that has grown.
* `DependencyRequest.mem_depends_collect` — names that are known are collected.
* `DependencyRequest.exists_of_collect_fault` — where the collection ends early.
* `DependencyRequest.mem_failures_collect` — what is said about undeclared inputs.
-/

namespace Autogen

open FileSystem

variable {fs fs' : FileSystem}

/-- What a plan is made from in a target, apart from its sources and utilities. -/
def Target.face (x : Target) : Target :=
  { x with sources := [], utilities := .empty, sourceCache := none }

variable [Environment]

theorem canonicalBeside_grows (hgrows : fs.Grows fs') (htree : fs.IsTree) {file : String}
    (hfile : startsAtRoot file = true) (paths : List String) :
    Follows fs.LinkLoop (canonicalBeside fs file paths) (canonicalBeside fs' file paths) :=
  .mapM fun _ _ => canonicalPath_grows hgrows htree (holds_beside fs hfile)

/-- The fault of listing inputs that a loop was met. -/
def ListingLoop (fs : FileSystem) (fault : ListingFault) : Prop :=
  ∃ cause, fault = .path cause ∧ fs.LinkLoop cause

/-- A way to list the inputs of resource files that gives the same in a tree that has grown. -/
def ResourceLister.Steady (lister : ResourceLister) : Prop :=
  ∀ fs fs' resource binding, FileSystem.Grows fs fs' → fs.IsTree →
    startsAtRoot resource.path = true →
    Follows (ListingLoop fs) (lister fs resource binding) (lister fs' resource binding)

theorem steady_declaredInputs : ResourceLister.Steady declaredInputs := by
  intro fs fs' resource binding hgrows htree hpath
  unfold declaredInputs
  split
  · exact .refl _
  · exact (canonicalBeside_grows hgrows htree hpath _).mapError fun cause hloop =>
      ⟨cause, rfl, hloop⟩

namespace DependencyRequest

variable {g g' : Graph} {r r' : DependencyRequest} {c : Classification}

/-- Requests that ask for the same, up to the utilities and the sources of their target. -/
structure Alike (r r' : DependencyRequest) : Prop where
  face : r'.target.face = r.target.face
  exclude : r'.exclude = r.exclude
  binding : r'.binding = r.binding
  lister : r'.lister = r.lister

omit [Environment] in
theorem Alike.part {α : Type} (part : Target → α) (hface : ∀ x, part x.face = part x)
    (hr : r.Alike r') :
    part r'.target = part r.target := by
  rw [← hface, ← hface r.target, hr.face]

/-- What a token stands for where the same names are known. -/
theorem declared_follows (hgrows : fs.Grows fs') (htree : fs.IsTree) (hr : r.Alike r')
    (hdir : fs.Holds (Path.ofString r.target.sourceDir))
    (hknown : ∀ token ∈ r.target.properties.autogenTargetDepends, g'.isKnown token =
      g.isKnown token) :
    Follows fs.LinkLoop (r.declared g fs) (r'.declared g' fs') := by
  unfold declared
  rw [hr.part (·.properties) (fun _ => rfl), hr.part (·.sourceDir) (fun _ => rfl)]
  refine Follows.mapM fun token htoken => ?_
  rw [hknown token htoken]
  split
  · exact .refl _
  · exact canonicalPath_grows hgrows htree hdir

/-- What a token stands for where more names are known. -/
theorem declared_survives (hgrows : fs.Grows fs') (htree : fs.IsTree) (hr : r.Alike r')
    (hdir : fs.Holds (Path.ofString r.target.sourceDir))
    (hknown : ∀ name, g.isKnown name = true → g'.isKnown name = true) :
    Survives fs.LinkLoop (r.declared g fs) (r'.declared g' fs') := by
  unfold declared
  rw [hr.part (·.properties) (fun _ => rfl), hr.part (·.sourceDir) (fun _ => rfl)]
  refine Survives.mapM fun token _ => ?_
  by_cases hbefore : g.isKnown token = true
  · rw [if_pos hbefore, if_pos (hknown token hbefore)]
    exact (Follows.refl _).survives
  · rw [if_neg hbefore]
    split
    · exact fun _ _ => .inl ⟨_, rfl⟩
    · have hpath : Follows fs.LinkLoop (canonicalPath fs token (some r.target.sourceDir))
          (canonicalPath fs' token (some r.target.sourceDir)) :=
            canonicalPath_grows hgrows htree hdir
      exact hpath.survives

/-- The inputs of a resource file in a tree that has grown. -/
theorem inputsOf_grows (hgrows : fs.Grows fs') (htree : fs.IsTree) (hr : r.Alike r')
    (hlister : ResourceLister.Steady r.lister) {resource : Resource}
    (hpath : startsAtRoot resource.path = true) :
    Follows fs.LinkLoop (r.inputsOf fs resource) (r'.inputsOf fs' resource) := by
  unfold inputsOf
  rw [hr.binding, hr.lister]
  split
  · exact .refl _
  · rename_i binding _
    rcases hlister fs fs' resource binding hgrows htree hpath
      with heq | ⟨-, ⟨cause, rfl, hloop⟩, heq⟩
    · rw [heq]
      split
      · exact .refl _
      · exact .refl _
      · rename_i listed _
        exact (canonicalBeside_grows hgrows htree hpath listed).bind fun _ _ => .refl _
    · rw [heq]
      exact .inr ⟨cause, hloop, rfl⟩

/-- Tallies that agree on everything but the dependencies themselves, and on these too if `same`
holds. -/
structure Matches (same : Prop) (t t' : DependencyTally) : Prop where
  failures : t'.failures = t.failures
  resourceInputs : t'.found.resourceInputs = t.found.resourceInputs
  depends : same → t'.found.depends = t.found.depends

/-- Outcomes whose tallies match, or of which the second one says that a loop was met. -/
def OutcomesMatch (fs : FileSystem) (same : Prop) (o o' : DependencyTally × Option PathFault) :
    Prop :=
  (∃ fault, fs.LinkLoop fault ∧ o'.2 = some fault) ∨ o'.2 = o.2 ∧ Matches same o.1 o'.1

variable {same : Prop} {t t' : DependencyTally}

theorem addResource_matches (hgrows : fs.Grows fs') (htree : fs.IsTree) (hr : r.Alike r')
    (hlister : ResourceLister.Steady r.lister) {resource : Resource}
    (hpath : startsAtRoot resource.path = true) (h : Matches same t t') :
    OutcomesMatch fs same (r.addResource fs t resource) (r'.addResource fs' t' resource) := by
  unfold addResource
  simp only
  split
  · refine .inr ⟨rfl, h.failures, h.resourceInputs, fun hsame => ?_⟩
    rw [h.depends hsame]
  · rcases inputsOf_grows hgrows htree hr hlister hpath with heq | ⟨fault, hloop, heq⟩
    · rw [heq]
      split
      · exact .inr ⟨rfl, h.failures, h.resourceInputs, h.depends⟩
      · exact .inr ⟨rfl, h.failures, h.resourceInputs, h.depends⟩
      · refine .inr ⟨rfl, ?_, h.resourceInputs, h.depends⟩
        rw [h.failures]
      · refine .inr ⟨rfl, h.failures, ?_, fun hsame => ?_⟩
        · rw [h.resourceInputs]
        · rw [h.depends hsame]
    · rw [heq]
      exact .inl ⟨fault, hloop, rfl⟩

theorem addResources_matches (hgrows : fs.Grows fs') (htree : fs.IsTree) (hr : r.Alike r')
    (hlister : ResourceLister.Steady r.lister) {resources : List Resource}
    (hpaths : ∀ resource ∈ resources, startsAtRoot resource.path = true) (h : Matches same t t') :
    OutcomesMatch fs same (r.addResources fs t resources) (r'.addResources fs' t' resources) := by
  induction resources generalizing t t' with
  | nil => exact .inr ⟨rfl, h⟩
  | cons resource rest ih =>
    have hfirst :=
      addResource_matches hgrows htree hr hlister (hpaths resource List.mem_cons_self) h
    rw [addResources, addResources]
    generalize r.addResource fs t resource = o at hfirst ⊢
    generalize r'.addResource fs' t' resource = o' at hfirst ⊢
    obtain ⟨tally, fault⟩ := o
    obtain ⟨tally', fault'⟩ := o'
    rcases hfirst with ⟨cause, hloop, hcause⟩ | ⟨hfault, hmatches⟩
    · simp only at hcause
      subst hcause
      exact .inl ⟨cause, hloop, rfl⟩
    · simp only at hfault hmatches
      subst hfault
      cases fault' with
      | some fault => exact .inr ⟨rfl, hmatches⟩
      | none => exact ih (fun other hother => hpaths other (List.mem_cons_of_mem _ hother)) hmatches

/-- What is there before any resource file, where the same names are known and linked. -/
theorem before_follows (hgrows : fs.Grows fs') (htree : fs.IsTree) (hr : r.Alike r')
    (hdir : fs.Holds (Path.ofString r.target.sourceDir))
    (hknown : ∀ token ∈ r.target.properties.autogenTargetDepends, g'.isKnown token =
      g.isKnown token)
    (hlinked : r'.linked g' = r.linked g) :
    Follows fs.LinkLoop (r.before g fs c) (r'.before g' fs' c) := by
  unfold before
  rw [hlinked]
  exact (declared_follows hgrows htree hr hdir hknown).bind fun _ _ => .refl _

theorem before_survives (hgrows : fs.Grows fs') (htree : fs.IsTree) (hr : r.Alike r')
    (hdir : fs.Holds (Path.ofString r.target.sourceDir))
    (hknown : ∀ name, g.isKnown name = true → g'.isKnown name = true) :
    Survives fs.LinkLoop (r.before g fs c) (r'.before g' fs' c) :=
  (declared_survives hgrows htree hr hdir hknown).bind fun _ _ _ _ => .inl ⟨_, rfl⟩

/-- Collecting dependencies comes to matching outcomes where the first one did not fail on what the
target names, or where the same names are known and linked. -/
theorem collect_matches (hgrows : fs.Grows fs') (htree : fs.IsTree) (hr : r.Alike r')
    (hlister : ResourceLister.Steady r.lister)
    (hpaths : ∀ resource ∈ c.resources, startsAtRoot resource.path = true)
    (hsurvives : Survives fs.LinkLoop (r.before g fs c) (r'.before g' fs' c))
    (hfollows : same → Follows fs.LinkLoop (r.before g fs c) (r'.before g' fs' c))
    (hbefore : same ∨ (r.collect g fs c).2 = none) :
    OutcomesMatch fs same (r.collect g fs c) (r'.collect g' fs' c) := by
  unfold collect at hbefore ⊢
  cases hdepends : r.before g fs c with
  | error fault =>
    -- The first collection failed on what the target names, so the same names are known and linked.
    have hsame : same := hbefore.resolve_right (by simp [hdepends])
    rcases hfollows hsame with heq | ⟨cause, hloop, heq⟩
    · rw [heq, hdepends]
      exact .inr ⟨rfl, rfl, rfl, fun _ => rfl⟩
    · rw [heq]
      exact .inl ⟨cause, hloop, rfl⟩
  | ok depends =>
    rcases hsurvives depends hdepends with ⟨depends', heq⟩ | ⟨cause, hloop, heq⟩
    · rw [heq]
      refine addResources_matches hgrows htree hr hlister hpaths ⟨rfl, rfl, fun hsame => ?_⟩
      rcases hfollows hsame with hequal | ⟨cause, -, hfault⟩
      · rw [hdepends, heq] at hequal
        exact Except.ok.inj hequal
      · rw [heq] at hfault
        cases hfault
    · rw [heq]
      exact .inl ⟨cause, hloop, rfl⟩

/-! ### Files whose change calls for a new configuration -/

theorem reconfigureFiles_addResources (r : DependencyRequest) {resources : List Resource}
    {t : DependencyTally} (h : (r.addResources fs t resources).2 = none) :
    (r.addResources fs t resources).1.found.reconfigureFiles =
      t.found.reconfigureFiles.insertAll ((resources.filter (!·.generated)).map (·.path)) := by
  induction resources generalizing t with
  | nil => rfl
  | cons resource rest ih =>
    have hfirst (hnone : (r.addResource fs t resource).2 = none) :
        (r.addResource fs t resource).1.found.reconfigureFiles =
          t.found.reconfigureFiles.insertAll (([resource].filter (!·.generated)).map (·.path)) := by
      unfold addResource at hnone ⊢
      cases hgenerated : resource.generated with
      | true =>
        simp [hgenerated, OrderedSet.insertAll]
      | false =>
        simp only [hgenerated, Bool.false_eq_true, if_false] at hnone ⊢
        generalize r.inputsOf fs resource = listed at hnone ⊢
        rcases listed with fault | _ | message | inputs
        · cases hnone
        · simp [hgenerated, OrderedSet.insertAll]
        · simp [hgenerated, OrderedSet.insertAll]
        · simp [hgenerated, OrderedSet.insertAll]
    rw [addResources] at h ⊢
    rcases hout : r.addResource fs t resource with ⟨next, fault⟩
    rw [hout] at hfirst h
    cases fault with
    | some fault => cases h
    | none =>
      have hsplit : (resource :: rest).filter (!·.generated) =
          [resource].filter (!·.generated) ++ rest.filter (!·.generated) := by
        rw [← List.singleton_append, List.filter_append]
      simp only
      rw [ih h, hfirst rfl, hsplit, List.map_append, OrderedSet.insertAll, OrderedSet.insertAll,
        OrderedSet.insertAll, List.foldl_append]

/-- The resource files that are not generated call for a new configuration. -/
theorem reconfigureFiles_collect (r : DependencyRequest) (h : (r.collect g fs c).2 = none) :
    (r.collect g fs c).1.found.reconfigureFiles =
      OrderedSet.ofList ((c.resources.filter (!·.generated)).map (·.path)) := by
  unfold collect at h ⊢
  split at h
  · cases h
  · exact reconfigureFiles_addResources r h

/-! ### What goes wrong -/

/-- A declared input of a resource file, or the canonical form of one, that has no canonical
form. -/
def InputFault (fs : FileSystem) (file : String) (inputs : List String) (fault : PathFault) :
    Prop :=
  ∃ entry ∈ inputs, ∃ path,
    (path = entry ∨ canonicalPath fs entry (some (Path.ofString file).parent.text) = .ok path) ∧
      canonicalPath fs path (some (Path.ofString file).parent.text) = .error fault

theorem inputFault_of_inputsOf {resource : Resource} {fault : PathFault}
    (hlister : r.lister = declaredInputs) (h : r.inputsOf fs resource = .error fault) :
    ∃ inputs, resource.declaredInputs = some inputs ∧ InputFault fs resource.path inputs fault := by
  unfold inputsOf at h
  split at h
  · cases h
  · rw [hlister, declaredInputs] at h
    cases hdeclared : resource.declaredInputs with
    | none => simp [hdeclared] at h
    | some inputs =>
      refine ⟨inputs, rfl, ?_⟩
      rw [hdeclared] at h
      cases hlisted : canonicalBeside fs resource.path inputs with
      | error cause =>
        obtain ⟨entry, hentry, hfails⟩ := exists_of_mapM_eq_error hlisted
        simp only [hlisted, mapError_error] at h
        cases h
        exact ⟨entry, hentry, entry, .inl rfl, hfails⟩
      | ok listed =>
        simp only [hlisted, mapError_ok] at h
        rcases bind_eq_error.mp h with hagain | ⟨_, -, h⟩
        · obtain ⟨path, hpath, hfails⟩ := exists_of_mapM_eq_error hagain
          obtain ⟨entry, hentry, hcanonical⟩ := exists_of_mapM hlisted path hpath
          exact ⟨entry, hentry, path, .inr hcanonical, hfails⟩
        · cases h

theorem inputsOf_of_undeclared {resource : Resource} (hlister : r.lister = declaredInputs)
    (hbinding : r.binding ≠ none) (hnone : resource.declaredInputs = none) :
    r.inputsOf fs resource =
      .ok (some
        (.error (listingMessage resource.path "no input list is declared for this file"))) := by
  unfold inputsOf
  cases hbound : r.binding with
  | none => exact absurd hbound hbinding
  | some binding => simp only [hlister, declaredInputs, hnone]

/-- Adding resource files ends early where the inputs of one of them have no canonical form. -/
theorem exists_of_addResources_fault {resources : List Resource}
    {t : DependencyTally} {fault : PathFault} (h : (r.addResources fs t resources).2 = some fault) :
    ∃ resource ∈ resources, r.inputsOf fs resource = .error fault := by
  induction resources generalizing t with
  | nil => cases h
  | cons resource rest ih =>
    have hfirst : (r.addResource fs t resource).2 = some fault →
        r.inputsOf fs resource = .error fault := by
      unfold addResource
      simp only
      split
      · simp
      · rcases r.inputsOf fs resource with cause | _ | message | inputs <;> simp
    rw [addResources] at h
    generalize r.addResource fs t resource = out at h hfirst
    rcases out with ⟨next, _ | cause⟩
    · obtain ⟨other, hother, hfails⟩ := ih h
      exact ⟨other, List.mem_cons_of_mem _ hother, hfails⟩
    · exact ⟨resource, List.mem_cons_self, hfirst h⟩

/-- Collecting dependencies ends early where a token that is no known name has no canonical form, or
the inputs of a resource file have none. -/
theorem exists_of_collect_fault {fault : PathFault} (h : (r.collect g fs c).2 = some fault) :
    (∃ token ∈ r.target.properties.autogenTargetDepends, g.isKnown token = false ∧
        canonicalPath fs token (some r.target.sourceDir) = .error fault) ∨
      ∃ resource ∈ c.resources, r.inputsOf fs resource = .error fault := by
  unfold collect at h
  split at h
  · rename_i cause hbefore
    cases h
    rcases bind_eq_error.mp hbefore with hdeclared | ⟨_, -, hrest⟩
    · obtain ⟨token, htoken, hfails⟩ := exists_of_mapM_eq_error hdeclared
      split at hfails
      · cases hfails
      · rename_i hunknown
        exact .inl ⟨token, htoken, Bool.eq_false_iff.mpr hunknown, hfails⟩
    · cases hrest
  · exact .inr (exists_of_addResources_fault h)

/-! ### What is not lost -/

/-- A tally to which something was added. -/
structure Extends (t t' : DependencyTally) : Prop where
  failures : ∀ message ∈ t.failures, message ∈ t'.failures
  depends : ∀ name ∈ t.found.depends.toList, name ∈ t'.found.depends.toList

omit [Environment] in
theorem Extends.refl (t : DependencyTally) : Extends t t :=
  ⟨fun _ h => h, fun _ h => h⟩

omit [Environment] in
theorem Extends.trans {t'' : DependencyTally} (h : Extends t t') (h' : Extends t' t'') :
    Extends t t'' :=
  ⟨fun message hmem => h'.failures message (h.failures message hmem),
    fun name hmem => h'.depends name (h.depends name hmem)⟩

theorem addResource_extends (t : DependencyTally) (resource : Resource) :
    Extends t (r.addResource fs t resource).1 := by
  unfold addResource
  simp only
  split
  · exact ⟨fun _ h => h, fun _ h => OrderedSet.mem_insert.mpr (.inl h)⟩
  · rcases r.inputsOf fs resource with cause | _ | message | inputs
    · exact ⟨fun _ h => h, fun _ h => h⟩
    · exact ⟨fun _ h => h, fun _ h => h⟩
    · exact ⟨fun _ h => List.mem_append_left _ h, fun _ h => h⟩
    · exact ⟨fun _ h => h, fun _ h => OrderedSet.mem_insertAll.mpr (.inl h)⟩

theorem addResources_extends (t : DependencyTally) (resources : List Resource) :
    Extends t (r.addResources fs t resources).1 := by
  induction resources generalizing t with
  | nil => exact .refl t
  | cons resource rest ih =>
    have hfirst : Extends t (r.addResource fs t resource).1 := addResource_extends t resource
    rw [addResources]
    generalize r.addResource fs t resource = out at hfirst ⊢
    rcases out with ⟨next, _ | cause⟩
    · exact hfirst.trans (ih next)
    · exact hfirst

/-- A name that is known and that the target gives among its dependencies is depended on, and so is
a utility or a link library that is known and not left out. -/
theorem mem_depends_collect (h : (r.collect g fs c).2 = none) {name : String}
    (hknown : g.isKnown name = true) (hname : name ∈ r.target.properties.autogenTargetDepends ∨
      name ∈ r.target.utilities.toList ++ r.target.linkLibraries ∧
      r.exclude.contains name = false) :
    name ∈ (r.collect g fs c).1.found.depends.toList := by
  unfold collect at h ⊢
  split at h
  · cases h
  · rename_i depends hbefore
    refine (addResources_extends _ _).depends name ?_
    obtain ⟨declared, hdeclared, hrest⟩ := bind_eq_ok.mp hbefore
    obtain rfl := Except.ok.inj hrest
    simp only [OrderedSet.mem_insertAll, OrderedSet.mem_ofList]
    refine .inl ?_
    rcases hname with htoken | ⟨hlinked, hkept⟩
    · left
      obtain ⟨found, hfound, hread⟩ := exists_mem_of_mapM hdeclared name htoken
      rw [if_pos hknown] at hread
      rwa [Except.ok.inj hread]
    · exact .inr (List.mem_filter.mpr ⟨hlinked, by rw [hkept, hknown]; rfl⟩)

/-- A resource file whose inputs could not be listed gives a message. -/
theorem mem_failures_addResources {resources : List Resource} {t : DependencyTally}
    (h : (r.addResources fs t resources).2 = none) {resource : Resource}
    (hresource : resource ∈ resources) (hgenerated : resource.generated = false) {message : String}
    (hrefused : r.inputsOf fs resource = .ok (some (.error message))) :
    message ∈ (r.addResources fs t resources).1.failures := by
  induction resources generalizing t with
  | nil => cases hresource
  | cons first rest ih =>
    rw [addResources] at h ⊢
    rcases List.mem_cons.mp hresource with rfl | hlater
    · have hadded : message ∈ (r.addResource fs t resource).1.failures := by
        simp [addResource, hgenerated, hrefused]
      generalize r.addResource fs t resource = out at h hadded ⊢
      rcases out with ⟨next, _ | cause⟩
      · exact (addResources_extends next rest).failures message hadded
      · cases h
    · generalize r.addResource fs t first = out at h ⊢
      rcases out with ⟨next, _ | cause⟩
      · exact ih h hlater
      · cases h

/-- When dependencies are collected, every resource file that is not generated and of which no
inputs are declared has given a message. -/
theorem mem_failures_collect (h : (r.collect g fs c).2 = none) (hlister : r.lister = declaredInputs)
    (hbinding : r.binding ≠ none) {resource : Resource} (hresource : resource ∈ c.resources)
    (hgenerated : resource.generated = false) (hnone : resource.declaredInputs = none) :
    listingMessage resource.path "no input list is declared for this file" ∈
      (r.collect g fs c).1.failures := by
  unfold collect at h ⊢
  split at h
  · cases h
  · exact mem_failures_addResources h hresource hgenerated
      (inputsOf_of_undeclared hlister hbinding hnone)

end DependencyRequest

end Autogen
