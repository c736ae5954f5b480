import Autogen.Proofs.Dependencies
import Autogen.Proofs.Firsts

/-!
# Where dependencies come from

The dependencies of a generation step come from the tokens that the target declares, from the
targets that it is linked with, from the generated files that are scanned, and from the resource
files. Each origin is told here by itself, without the collection: what a token stands for, and what
one resource file yields. Where all paths have canonical forms the collection is these origins in
their order, each dependency once.

## Main definitions

* `DependencyRequest.StandsFor` — the dependency that a token stands for.
* `DependencyRequest.Lists`, `DependencyRequest.Refuses` — how the listing of a resource file turns
  out.
* `DependencyRequest.Yields` — what one resource file yields.
* `DependencyRequest.Resolves` — all paths that are met have canonical forms.

## Main statements

* `DependencyRequest.collect_of_yields` — a collection is made of what the origins yield.
* `Graph.collectDependencies_of_resolves` — what is collected, by origin, and what a resource file
  changes whose inputs are not listed.
-/

namespace Autogen

open FileSystem

section

variable [Environment]

omit [Environment] in
theorem exists_forall₂ {α β : Type} {R : α → β → Prop} {items : List α}
    (h : ∀ a ∈ items, ∃ b, R a b) :
    ∃ results, List.Forall₂ R items results := by
  induction items with
  | nil => exact ⟨[], .nil⟩
  | cons item rest ih =>
    obtain ⟨first, hfirst⟩ := h item List.mem_cons_self
    obtain ⟨others, hothers⟩ := ih fun a ha => h a (List.mem_cons_of_mem _ ha)
    exact ⟨first :: others, .cons hfirst hothers⟩

namespace DependencyRequest

variable {g : Graph} {fs : FileSystem} {r : DependencyRequest} {c : Classification}
  {resource : Resource}

/-! ## The origins -/

/-- The dependency that a token stands for: a known name for itself, anything else for a file. -/
def StandsFor (r : DependencyRequest) (g : Graph) (fs : FileSystem) (token name : String) : Prop :=
  if g.isKnown token then name = token else canonicalPath fs token (some r.target.sourceDir) =
    .ok name

/-- The inputs of a resource file are listed, and these are their canonical forms, each of them
once. -/
def Lists (r : DependencyRequest) (fs : FileSystem) (resource : Resource) (inputs : List String) :
    Prop :=
  ∃ binding listed canonical, r.binding = some binding ∧ r.lister fs resource binding = .ok listed ∧
    canonicalBeside fs resource.path listed = .ok canonical ∧ inputs = canonical.eraseDups

/-- The inputs of a resource file are not listed, for a reason that is given for a file. -/
def Refuses (r : DependencyRequest) (fs : FileSystem) (resource : Resource) (file reason : String) :
    Prop :=
  ∃ binding, r.binding = some binding ∧ r.lister fs resource binding = .error (.refused file reason)

/-- What one resource file comes to: the dependencies that it adds, the entry for its inputs, and
the message if they could not be listed. -/
structure Yield where
  depends : List String := []
  entry : Option (String × List String) := none
  failure : Option String := none

/-- What a resource file yields. A generated one has to exist itself; of another one the inputs have
to exist, if there is a tool that lists them and it does so. -/
inductive Yields (r : DependencyRequest) (fs : FileSystem) (resource : Resource) :
    Yield → Prop where
  | generated (hgenerated : resource.generated = true) :
      Yields r fs resource { depends := [resource.path] }
  | unbound (hgenerated : resource.generated = false) (hbinding : r.binding = none) :
      Yields r fs resource {}
  | refused {file reason : String} (hgenerated : resource.generated = false)
      (h : r.Refuses fs resource file reason) :
      Yields r fs resource { failure := some (listingMessage file reason) }
  | listed {inputs : List String} (hgenerated : resource.generated = false)
      (h : r.Lists fs resource inputs) :
      Yields r fs resource { depends := inputs, entry := some (resource.path, inputs) }

/-- All paths that a collection meets have canonical forms. -/
structure Resolves (r : DependencyRequest) (g : Graph) (fs : FileSystem) (c : Classification) :
    Prop where
  tokens : ∀ token ∈ r.target.properties.autogenTargetDepends, g.isKnown token = false →
    ∃ name, canonicalPath fs token (some r.target.sourceDir) = .ok name
  listings : ∀ resource ∈ c.resources, resource.generated = false →
    ∀ binding, r.binding = some binding →
    (∃ file reason, r.lister fs resource binding = .error (.refused file reason)) ∨
      ∃ listed canonical, r.lister fs resource binding = .ok listed ∧
        canonicalBeside fs resource.path listed = .ok canonical

theorem Resolves.standsFor (h : r.Resolves g fs c) {token : String}
    (htoken : token ∈ r.target.properties.autogenTargetDepends) :
    ∃ name, r.StandsFor g fs token name := by
  unfold StandsFor
  by_cases hknown : g.isKnown token = true
  · exact ⟨token, by rw [if_pos hknown]⟩
  · obtain ⟨name, hname⟩ := h.tokens token htoken (Bool.eq_false_iff.mpr hknown)
    exact ⟨name, by rwa [if_neg hknown]⟩

theorem Resolves.yields (h : r.Resolves g fs c) (hresource : resource ∈ c.resources) :
    ∃ y, r.Yields fs resource y := by
  cases hgenerated : resource.generated with
  | true => exact ⟨_, .generated hgenerated⟩
  | false =>
    cases hbinding : r.binding with
    | none => exact ⟨_, .unbound hgenerated hbinding⟩
    | some binding =>
      rcases h.listings resource hresource hgenerated binding hbinding with
        ⟨file, reason, hrefused⟩ | hlisted
      · exact ⟨_, .refused hgenerated ⟨binding, hbinding, hrefused⟩⟩
      · obtain ⟨listed, canonical, hlisted, hcanonical⟩ := hlisted
        exact ⟨_,
          .listed hgenerated ⟨binding, listed, canonical, hbinding, hlisted, hcanonical, rfl⟩⟩

/-! ## What is collected from them -/

/-- The entry for the inputs of a resource file tells what was listed for it. -/
theorem Yields.entry_eq_some {y : Yield} (h : r.Yields fs resource y) {path : String}
    {inputs : List String} :
    y.entry = some (path, inputs) ↔
      path = resource.path ∧ resource.generated = false ∧ r.Lists fs resource inputs := by
  cases h with
  | generated hgenerated => simp [hgenerated]
  | unbound hgenerated hbinding => simp [Lists, hbinding]
  | refused hgenerated hrefused =>
    obtain ⟨binding, hbinding, hrefused⟩ := hrefused
    simp [Lists, hbinding, hrefused]
  | listed hgenerated hlisted =>
    obtain ⟨binding, listed, canonical, hbinding, hlisted, hcanonical, rfl⟩ := hlisted
    simp [Lists, hbinding, hlisted, hcanonical, hgenerated, eq_comm]

theorem Yields.of_refuses {y : Yield} (h : r.Yields fs resource y)
    (hgenerated : resource.generated = false) {file reason : String}
    (hrefuses : r.Refuses fs resource file reason) :
    y = { failure := some (listingMessage file reason) } := by
  obtain ⟨binding, hbinding, hrefused⟩ := hrefuses
  cases h with
  | generated hother => simp [hgenerated] at hother
  | unbound _ hother => simp [hbinding] at hother
  | refused _ hother =>
    obtain ⟨other, hbinding', hrefused'⟩ := hother
    rw [hbinding] at hbinding'
    cases hbinding'
    rw [hrefused] at hrefused'
    cases hrefused'
    rfl
  | listed _ hother =>
    obtain ⟨other, listed, -, hbinding', hlisted, -⟩ := hother
    rw [hbinding] at hbinding'
    cases hbinding'
    simp [hrefused] at hlisted

/-- A resource file whose listing is refused yields its message, between what the files before and
after it yield; these yield the same without it. -/
theorem exists_split_of_refuses {before after : List Resource}
    {failing : Resource} {ys : List Yield}
    (h : List.Forall₂ (r.Yields fs) (before ++ failing :: after) ys)
    (hgenerated : failing.generated = false) {file reason : String}
    (hrefuses : r.Refuses fs failing file reason) :
    ∃ earlier later, ys = earlier ++ { failure := some (listingMessage file reason) } :: later ∧
      List.Forall₂ (r.Yields fs) (before ++ after) (earlier ++ later) := by
  have hearlier : List.Forall₂ (r.Yields fs) before (ys.take before.length) :=
    (List.forall₂_take_append _ _ _ h.flip).flip
  have hrest : List.Forall₂ (r.Yields fs) (failing :: after) (ys.drop before.length) :=
    (List.forall₂_drop_append _ _ _ h.flip).flip
  obtain ⟨y, later, hy, hlater, hdrop⟩ := List.forall₂_cons_left_iff.mp hrest
  obtain rfl := hy.of_refuses hgenerated hrefuses
  refine ⟨ys.take before.length, later, ?_, List.rel_append hearlier hlater⟩
  rw [← hdrop, List.take_append_drop]

/-- A tally to which something was yielded, as far as resource files that call for a new
configuration do not matter. -/
structure Gathers (t : DependencyTally) (ys : List Yield) (t' : DependencyTally) : Prop where
  depends : t'.found.depends = t.found.depends.insertAll (ys.flatMap (·.depends))
  resourceInputs : t'.found.resourceInputs =
    (ys.filterMap (·.entry)).foldl (fun m pair => m.insert pair.1 pair.2) t.found.resourceInputs
  failures : t'.failures = t.failures ++ ys.filterMap (·.failure)

variable {t t' t'' : DependencyTally} {y : Yield} {ys : List Yield}

omit [Environment] in
theorem Gathers.cons (hfirst : Gathers t [y] t') (hrest : Gathers t' ys t'') :
    Gathers t (y :: ys) t'' where
  depends := by
    rw [hrest.depends, hfirst.depends, OrderedSet.insertAll, OrderedSet.insertAll,
      OrderedSet.insertAll, ← List.foldl_append, ← List.flatMap_append, List.singleton_append]
  resourceInputs := by
    rw [hrest.resourceInputs, hfirst.resourceInputs, ← List.foldl_append, ← List.filterMap_append,
      List.singleton_append]
  failures := by
    rw [hrest.failures, hfirst.failures, List.append_assoc, ← List.filterMap_append,
      List.singleton_append]

theorem addResource_of_yields (h : r.Yields fs resource y) (t : DependencyTally) :
    ∃ t', r.addResource fs t resource = (t', none) ∧ Gathers t [y] t' := by
  unfold addResource
  cases h with
  | generated hgenerated =>
    rw [if_pos hgenerated]
    exact ⟨_, rfl, ⟨rfl, rfl, by simp⟩⟩
  | unbound hgenerated hbinding =>
    simp only [hgenerated, Bool.false_eq_true, if_false, inputsOf, hbinding]
    exact ⟨_, rfl, ⟨rfl, rfl, by simp⟩⟩
  | refused hgenerated hrefused =>
    obtain ⟨binding, hbinding, hrefused⟩ := hrefused
    simp only [hgenerated, Bool.false_eq_true, if_false, inputsOf, hbinding, hrefused]
    exact ⟨_, rfl, ⟨rfl, rfl, rfl⟩⟩
  | listed hgenerated hlisted =>
    obtain ⟨binding, listed, canonical, hbinding, hlisted, hcanonical, rfl⟩ := hlisted
    have hinputs : r.inputsOf fs resource = .ok (some (.ok canonical.eraseDups)) := by
      simp only [inputsOf, hbinding, hlisted, hcanonical, ← OrderedSet.toList_ofList canonical]
      rfl
    simp only [hgenerated, Bool.false_eq_true, if_false, hinputs]
    exact ⟨_, rfl, ⟨by simp, rfl, by simp⟩⟩

theorem addResources_of_yields {resources : List Resource}
    (h : List.Forall₂ (r.Yields fs) resources ys) (t : DependencyTally) :
    ∃ t', r.addResources fs t resources = (t', none) ∧ Gathers t ys t' := by
  induction h generalizing t with
  | nil => exact ⟨t, rfl, ⟨rfl, rfl, by simp⟩⟩
  | cons hresource _ ih =>
    obtain ⟨next, hnext, hfirst⟩ := addResource_of_yields hresource t
    obtain ⟨last, hlast, hrest⟩ := ih next
    rw [addResources, hnext]
    exact ⟨last, hlast, hfirst.cons hrest⟩

theorem before_of_standsFor {declared : List String}
    (h : List.Forall₂ (r.StandsFor g fs) r.target.properties.autogenTargetDepends declared) :
    r.before g fs c = .ok (.ofList (declared ++ r.linked g ++ c.generatedScanFiles)) := by
  have hdeclared : r.declared g fs = .ok declared := by
    refine mapM_eq_ok.mpr (h.imp fun token name hname => ?_)
    unfold StandsFor at hname
    split at hname
    · rw [if_pos ‹_›, hname]
    · rwa [if_neg ‹_›]
  rw [before, hdeclared]
  refine congrArg Except.ok ?_
  rw [OrderedSet.ofList, OrderedSet.ofList, OrderedSet.insertAll, OrderedSet.insertAll,
    OrderedSet.insertAll, OrderedSet.insertAll, ← List.foldl_append,
    ← List.foldl_append, List.append_assoc]

/-- A collection is made of what the tokens stand for, the linked targets, the generated files that
are scanned, and what the resource files yield. -/
theorem collect_of_yields {declared : List String}
    (hdeclared : List.Forall₂ (r.StandsFor g fs) r.target.properties.autogenTargetDepends declared)
    (hyields : List.Forall₂ (r.Yields fs) c.resources ys) :
    ∃ t, r.collect g fs c = (t, none) ∧
      t.found.depends =
        .ofList (declared ++ r.linked g ++ c.generatedScanFiles ++ ys.flatMap (·.depends)) ∧
      t.found.resourceInputs = .ofList (ys.filterMap (·.entry)) ∧
      t.failures = ys.filterMap (·.failure) := by
  unfold collect
  rw [before_of_standsFor hdeclared]
  obtain ⟨t, ht, hgathers⟩ := addResources_of_yields hyields
    { found := { depends := .ofList (declared ++ r.linked g ++ c.generatedScanFiles) } }
  refine ⟨t, ht, ?_, hgathers.resourceInputs, by simpa using hgathers.failures⟩
  rw [hgathers.depends, OrderedSet.ofList, OrderedSet.ofList, OrderedSet.insertAll,
    OrderedSet.insertAll, OrderedSet.insertAll, ← List.foldl_append]

/-- The entries for inputs are those of distinct resource files. -/
theorem keys_of_yields {resources : List Resource} (h : List.Forall₂ (r.Yields fs) resources ys) :
    List.Sublist ((ys.filterMap (·.entry)).map Prod.fst) (resources.map (·.path)) := by
  induction h with
  | nil => exact .slnil
  | @cons first y resources ys hfirst _ ih =>
    rw [List.map_cons]
    cases hentry : y.entry with
    | none =>
      rw [List.filterMap_cons_none hentry]
      exact ih.cons _
    | some pair =>
      rw [List.filterMap_cons_some hentry, List.map_cons, (hfirst.entry_eq_some.mp hentry).1]
      exact ih.cons_cons _

/-- Which inputs the entries record. -/
theorem mem_entries {resources : List Resource} (h : List.Forall₂ (r.Yields fs) resources ys)
    {path : String} {inputs : List String} :
    (path, inputs) ∈ ys.filterMap (·.entry) ↔
      ∃ resource ∈ resources, resource.path = path ∧ resource.generated = false ∧
        r.Lists fs resource inputs := by
  obtain ⟨hresources, hyields⟩ := mem_of_forall₂ h
  rw [List.mem_filterMap]
  constructor
  · rintro ⟨y, hy, hentry⟩
    obtain ⟨resource, hresource, hyield⟩ := hyields y hy
    obtain ⟨rfl, hrest⟩ := hyield.entry_eq_some.mp hentry
    exact ⟨resource, hresource, rfl, hrest⟩
  · rintro ⟨resource, hresource, rfl, hrest⟩
    obtain ⟨y, hy, hyield⟩ := hresources resource hresource
    exact ⟨y, hy, hyield.entry_eq_some.mpr ⟨rfl, hrest⟩⟩

end DependencyRequest

/-! ## What a graph is asked for -/

namespace Graph

open DependencyRequest

variable {g : Graph} {fs : FileSystem} {r : DependencyRequest} {c : Classification}

theorem collectDependencies_of_yields (ds : Diagnostics) {declared : List String} {ys : List Yield}
    (hdeclared : List.Forall₂ (r.StandsFor g fs) r.target.properties.autogenTargetDepends declared)
    (hyields : List.Forall₂ (r.Yields fs) c.resources ys) :
    ∃ d, (g.collectDependencies fs r c ds).result = .ok d ∧
      d.depends =
        .ofList (declared ++ r.linked g ++ c.generatedScanFiles ++ ys.flatMap (·.depends)) ∧
      d.resourceInputs = .ofList (ys.filterMap (·.entry)) ∧
      d.reconfigureFiles = .ofList ((c.resources.filter (!·.generated)).map (·.path)) ∧
      (g.collectDependencies fs r c ds).graph = g.addReconfigureFiles d.reconfigureFiles.toList ∧
      (g.collectDependencies fs r c ds).diagnostics = ds.errors (ys.filterMap (·.failure)) := by
  obtain ⟨t, ht, hdepends, hinputs, hfailures⟩ := collect_of_yields hdeclared hyields
  have hcompleted : (r.collect g fs c).2 = none := by rw [ht]
  have hreconfigure := reconfigureFiles_collect r hcompleted
  rw [ht] at hreconfigure
  unfold collectDependencies
  rw [ht]
  exact ⟨t.found, rfl, hdepends, hinputs, hreconfigure, rfl, by rw [← hfailures]⟩

/-- Where all paths have canonical forms, dependencies are collected, and each of them comes from
one of five origins in this order. The inputs of exactly those resource files are recorded that are
not generated and whose listing succeeds. A resource file that is not generated calls for a new
configuration in any case. One whose listing is refused makes one error, and everything else is
collected as if it were not there. -/
theorem collectDependencies_of_resolves (g : Graph) (fs : FileSystem) (r : DependencyRequest)
    (c : Classification) (ds : Diagnostics) (hdistinct : (c.resources.map (·.path)).Nodup)
    (hresolves : r.Resolves g fs c) :
    let collected := g.collectDependencies fs r c ds
    ∃ declared ys d,
      List.Forall₂ (r.StandsFor g fs) r.target.properties.autogenTargetDepends declared ∧
      List.Forall₂ (r.Yields fs) c.resources ys ∧
      collected.result = .ok d ∧
      d.depends.toList =
        (declared ++
          ((r.target.utilities.toList ++ r.target.linkLibraries).filter fun name =>
            !r.exclude.contains name && g.isKnown name) ++
          c.generatedScanFiles ++ ys.flatMap (·.depends)).eraseDups ∧
      (∀ path inputs, d.resourceInputs.get? path = some inputs ↔
        ∃ resource ∈ c.resources, resource.path = path ∧ resource.generated = false ∧
          r.Lists fs resource inputs) ∧
      (∀ resource ∈ c.resources, resource.generated = false →
        resource.path ∈ d.reconfigureFiles.toList ∧
        resource.path ∈ collected.graph.reconfigureFiles.toList) ∧
      collected.diagnostics = ds.errors (ys.filterMap (·.failure)) ∧
      ∀ before failing after file reason, c.resources = before ++ failing :: after →
        failing.generated = false → r.Refuses fs failing file reason →
        let others := g.collectDependencies fs r { c with resources := before ++ after } ds
        ∃ d' earlier later, others.result = .ok d' ∧
          d'.depends = d.depends ∧ d'.resourceInputs = d.resourceInputs ∧
          others.diagnostics = ds.errors (earlier ++ later) ∧
          collected.diagnostics = ds.errors (earlier ++ listingMessage file reason :: later) := by
  intro collected
  obtain ⟨declared, hdeclared⟩ := exists_forall₂ fun token htoken => hresolves.standsFor htoken
  obtain ⟨ys, hyields⟩ := exists_forall₂ fun resource hresource => hresolves.yields hresource
  obtain ⟨d, hresult, hdepends, hinputs, hreconfigure, hgraph, hdiagnostics⟩ :=
    collectDependencies_of_yields ds hdeclared hyields
  have hkeys : ((ys.filterMap (·.entry)).map Prod.fst).Nodup :=
    (keys_of_yields hyields).nodup hdistinct
  refine ⟨declared, ys, d, hdeclared, hyields, hresult, ?depends, ?inputs,
    ?reconfigure, hdiagnostics, ?isolated⟩
  case depends =>
    rw [hdepends, OrderedSet.toList_ofList]
    rfl
  case inputs =>
    intro path inputs
    rw [OrderedMap.get?_eq_some, hinputs, OrderedMap.toList_ofList hkeys, mem_entries hyields]
  case reconfigure =>
    intro resource hresource hgenerated
    have hmem : resource.path ∈ d.reconfigureFiles.toList := by
      rw [hreconfigure, OrderedSet.mem_ofList]
      exact List.mem_map_of_mem (List.mem_filter.mpr ⟨hresource, by rw [hgenerated]; rfl⟩)
    refine ⟨hmem, ?_⟩
    rw [show collected.graph = _ from hgraph]
    exact OrderedSet.mem_insertAll.mpr (.inr hmem)
  case isolated =>
    intro before failing after file reason hsplit hgenerated hrefuses others
    rw [hsplit] at hyields
    obtain ⟨earlier, later, hys, hothers⟩ := exists_split_of_refuses hyields hgenerated hrefuses
    obtain ⟨d', hresult', hdepends', hinputs', -, -, hdiagnostics'⟩ :=
      collectDependencies_of_yields (c := { c with resources := before ++ after })
        ds hdeclared hothers
    refine ⟨d', _, _, hresult', ?_, ?_, hdiagnostics'.trans (by rw [List.filterMap_append]), ?_⟩
    · rw [hdepends', hdepends, hys]
      simp
    · rw [hinputs', hinputs, hys]
      simp
    · rw [show collected.diagnostics = _ from hdiagnostics, hys]
      simp

end Graph

end

namespace Graph

attribute [local instance] Environment.plain

/-- The request for the dependencies of an application, which names a library and a file. -/
def appRequest : DependencyRequest where
  target := {
    name := "app"
    sourceDir := "/w/src"
    binaryDir := "/w/build"
    properties := { autogenTargetDepends := ["helpers", "notes.txt"] }
    utilities := .ofList ["docs", "app_autogen"]
    linkLibraries := ["helpers", "m"] }
  exclude := ["app_autogen"]
  binding := some { tool := .rcc, version := "5", executable := "/opt/rcc" }
  lister := declaredInputs

/-- Resource files of which two share an input, one declares none, and one is generated. -/
def sharingResources : Classification where
  generatedScanFiles := ["/w/build/made.cpp", "/w/src/b.png"]
  resources := [
    { path := "/w/src/one.qrc", generated := false, declaredInputs := some ["a.png", "b.png"] },
    { path := "/w/src/two.qrc", generated := false },
    { path := "/w/src/three.qrc", generated := false, declaredInputs := some ["b.png", "c.png"] },
    { path := "/w/build/made.qrc", generated := true }]

/-- A project in which the names are known that the application names, but for one. -/
def helpersProject : Graph where
  settings := { sourceDir := "/w/src", binaryDir := "/w/build" }
  importedTargets := .ofList [("helpers", ⟨"helpers", ""⟩), ("docs", ⟨"docs", ""⟩)]

theorem collectDependencies_of_resolves_sharingResources :
    let collected := helpersProject.collectDependencies ⟨.empty⟩ appRequest
      sharingResources { target := none }
    ∃ d, collected.result = .ok d ∧
      d.depends.toList =
        ["helpers", "/w/src/notes.txt", "docs", "/w/build/made.cpp", "/w/src/b.png",
        "/w/src/a.png", "/w/src/c.png", "/w/build/made.qrc"] ∧
      "/w/src/two.qrc" ∈ collected.graph.reconfigureFiles.toList ∧
      ∃ d', (helpersProject.collectDependencies ⟨.empty⟩ appRequest { sharingResources with
          resources := sharingResources.resources.eraseIdx 1 } { target := none }).result = .ok d' ∧
        d'.depends = d.depends ∧ d'.resourceInputs = d.resourceInputs := by
  intro collected
  have hresolves : appRequest.Resolves helpersProject ⟨.empty⟩ sharingResources := by
    refine ⟨by decide +kernel, fun resource hresource hgenerated binding hbinding => ?_⟩
    cases hbinding
    simp only [sharingResources, List.mem_cons, List.not_mem_nil, or_false] at hresource
    rcases hresource with rfl | rfl | rfl | rfl
    · exact .inr ⟨["/w/src/a.png", "/w/src/b.png"],
        ["/w/src/a.png", "/w/src/b.png"], by decide +kernel,
        by decide +kernel⟩
    · exact .inl ⟨"/w/src/two.qrc", "no input list is declared for this file", rfl⟩
    · exact .inr ⟨["/w/src/b.png", "/w/src/c.png"],
        ["/w/src/b.png", "/w/src/c.png"], by decide +kernel,
        by decide +kernel⟩
    · cases hgenerated
  obtain ⟨_, _, d, -, -, hresult, -, -, hreconfigure, -, hisolated⟩ :=
    collectDependencies_of_resolves helpersProject ⟨.empty⟩ appRequest
      sharingResources { target := none }
      (by decide) hresolves
  obtain ⟨found, hfound, hdepends⟩ : ∃ found, collected.result = .ok found ∧
      found.depends.toList =
        ["helpers", "/w/src/notes.txt", "docs", "/w/build/made.cpp", "/w/src/b.png",
        "/w/src/a.png", "/w/src/c.png", "/w/build/made.qrc"] := by
    decide +kernel
  obtain rfl : found = d := Except.ok.inj (hfound.symm.trans hresult)
  have hmem : { path := "/w/src/two.qrc", generated := false } ∈ sharingResources.resources := by
    decide
  obtain ⟨-, hlisted⟩ := hreconfigure _ hmem rfl
  obtain ⟨d', _, _, hothers, hsame, hinputs, -⟩ :=
    hisolated [_] _ [_, _] "/w/src/two.qrc" "no input list is declared for this file"
      rfl rfl ⟨_, rfl, rfl⟩
  refine ⟨found, hresult, hdepends, ?_, d', hothers, hsame, hinputs⟩
  simpa only [collected] using hlisted

end Graph

end Autogen
