import Autogen.Proofs.Layout

/-!
# Checksums of trees that are moved

The short name for a directory is made from the way down to it, so it stays the same when the whole
tree is moved. The root directory is the one exception: it is its own parent, and what stands in its
place after a move is not.

## Main definitions

* `RootedAt` — roots that are given by ways down from one directory.
* `seedBelow?` — the text for a directory, found from the ways alone.

## Main statements

* `Path.relativeTo?_join` — how two directories lie to each other does not depend on where they both
  are.
* `checksumSeed_of_rooted` — the text for a directory below one of the roots.
* `Graph.checksum_of_roots` — the checksums of a tree that is moved, and of different directories.
-/

namespace Autogen

open FileSystem

namespace Path

variable {top root p : Path}

/-! ## Ways down from a directory -/

theorem join_of_relative (top : Path) (hp : p.isAbsolute = false) :
    top.join p = { top with parts := top.parts ++ p.parts } := by
  rw [join, hp, if_neg Bool.false_ne_true]

theorem anchor_of_relative (hp : p.isAbsolute = false) : p.anchor = .relative := by
  simpa [isAbsolute] using hp

/-- The directory of what lies below another directory is found from there as well, unless that is
the directory itself and has a parent. -/
theorem parent_join (hp : p.isAbsolute = false) (h : p.parts = [] → top.parts = []) :
    (top.join p).parent = top.join p.parent := by
  rw [join_of_relative top hp, join_of_relative top (p := p.parent) hp, parent, parent]
  by_cases hparts : p.parts = []
  · simp [hparts, h hparts]
  · rw [List.dropLast_append_of_ne_nil hparts]

/-- The parent of a directory with a parent lies below nothing that is found from the directory. -/
theorem parts_eq_nil_of_isUnder (hroot : root.isAbsolute = false) (hp : p.isAbsolute = false)
    (h : (top.join root).isUnder (top.join p).parent = true) (hparts : p.parts = []) :
    top.parts = [] := by
  rw [join_of_relative top hroot, join_of_relative top hp, isUnder, parent, Bool.and_eq_true,
    List.isPrefixOf_iff_prefix, hparts, List.append_nil] at h
  have hlength : top.parts.length + root.parts.length ≤ top.parts.length - 1 := by
    simpa using h.2.length_le
  exact List.eq_nil_of_length_eq_zero (by omega)

/-- How two paths lie to each other does not depend on where they both are. -/
theorem relativeTo?_join (top : Path) (hroot : root.isAbsolute = false)
    (hp : p.isAbsolute = false) :
    (top.join root).relativeTo? (top.join p) = root.relativeTo? p := by
  have hunder : (top.join root).isUnder (top.join p) = root.isUnder p := by
    rw [join_of_relative top hroot, join_of_relative top hp, isUnder, isUnder,
      anchor_of_relative hroot, anchor_of_relative hp, beq_self_eq_true,
      beq_self_eq_true, Bool.eq_iff_iff]
    simp only [Bool.true_and, List.isPrefixOf_iff_prefix, List.prefix_append_right_inj]
  have hdrop : (top.join p).parts.drop (top.join root).parts.length =
      p.parts.drop root.parts.length := by
    rw [join_of_relative top hroot, join_of_relative top hp, List.length_append, List.drop_append]
    simp
  rw [relativeTo?, relativeTo?, hunder, hdrop]

end Path

/-! ## Texts for directories -/

/-- Roots that are found from one directory, each of them by a way down and under a label. -/
def RootedAt (top : Path) (ways : List (String × Path)) (roots : List (String × String)) : Prop :=
  roots.map (fun root => (root.1, Path.ofString root.2)) = ways.map fun way =>
    (way.1, top.join way.2)

instance (top : Path) (ways : List (String × Path)) (roots : List (String × String)) :
    Decidable (RootedAt top ways roots) :=
  inferInstanceAs (Decidable (_ = _))

/-- The text for a directory from the first one of some labelled directories that it lies in. -/
def seedBelow? (ways : List (String × Path)) (dir : Path) : Option String :=
  ways.findSome? fun way => (way.2.relativeTo? dir).map fun rest => way.1 ++ "/" ++ rest.text

variable {top top' q : Path} {ways : List (String × Path)} {roots roots' : List (String × String)}
  {path path' : String}

theorem seedBelow?_isSome {dir : Path} :
    (seedBelow? ways dir).isSome ↔ ∃ way ∈ ways, way.2.isUnder dir = true := by
  rw [seedBelow?, List.findSome?_isSome_iff]
  refine exists_congr fun way => and_congr_right fun _ => ?_
  rw [Option.isSome_map, Path.relativeTo?]
  split <;> simp_all

/-- Ways down from a directory lead past another one in the same way, wherever they start. -/
theorem seedBelow?_join (top : Path) (hways : ∀ way ∈ ways, way.2.isAbsolute = false)
    (hq : q.isAbsolute = false) :
    seedBelow? (ways.map fun way => (way.1, top.join way.2)) (top.join q) = seedBelow? ways q := by
  unfold seedBelow?
  rw [List.findSome?_map, ← List.head?_filterMap, ← List.head?_filterMap]
  refine congrArg List.head? (List.filterMap_congr fun way hway => ?_)
  rw [Function.comp_apply, Path.relativeTo?_join top (hways way hway) hq]

/-- The text for a directory is found from the roots as paths. -/
theorem checksumSeed_of_rooted (hroots : RootedAt top ways roots) :
    checksumSeed path roots = (seedBelow? (ways.map fun way => (way.1, top.join way.2))
      (Path.ofString path).parent).getD (Path.ofString path).parent.text := by
  rw [← hroots]
  unfold checksumSeed seedBelow?
  rw [List.findSome?_map]
  simp only [Function.comp_def]
  cases roots.findSome? _ <;> rfl

/-- A directory lies in one of the roots exactly if its text is found from them. -/
theorem isSome_of_rooted (hroots : RootedAt top ways roots) {dir : Path} :
    (∃ root ∈ roots, (Path.ofString root.2).isUnder dir = true) ↔
      (seedBelow? (ways.map fun way => (way.1, top.join way.2)) dir).isSome := by
  rw [seedBelow?_isSome, ← hroots]
  simp

/-- Nothing that is found from a directory holds the parent of it, unless the directory is its own
parent. -/
theorem parts_eq_nil_of_seedBelow? (hways : ∀ way ∈ ways, way.2.isAbsolute = false)
    (hq : q.isAbsolute = false)
    (h : (seedBelow? (ways.map fun way => (way.1, top.join way.2)) (top.join q).parent).isSome) :
    q.parts = [] → top.parts = [] := by
  obtain ⟨_, hmem, hunder⟩ := seedBelow?_isSome.mp h
  obtain ⟨way, hway, rfl⟩ := List.mem_map.mp hmem
  exact Path.parts_eq_nil_of_isUnder (hways way hway) hq hunder

/-- Where a directory lies below another one, the text for its parent is found from the ways
alone. -/
theorem seedBelow?_parent (hways : ∀ way ∈ ways, way.2.isAbsolute = false)
    (hq : q.isAbsolute = false) (h : q.parts = [] → top.parts = []) :
    seedBelow? (ways.map fun way => (way.1, top.join way.2)) (top.join q).parent =
      seedBelow? ways q.parent := by
  rw [Path.parent_join hq h]
  exact seedBelow?_join top hways hq

/-- A text that begins with the label of a root is not that of an absolute path. -/
theorem startsAtRoot_of_seedBelow? (hlabelled : Labelled roots) (hroots : RootedAt top ways roots)
    {dir : Path} {seed : String} (h : seedBelow? ways dir = some seed) :
    startsAtRoot seed = false := by
  obtain ⟨way, hway, hfound⟩ := List.exists_of_findSome?_eq_some h
  obtain ⟨rest, -, rfl⟩ := Option.map_eq_some_iff.mp hfound
  have hlabels : roots.map (·.1) = ways.map (·.1) := by
    simpa [Function.comp_def] using congrArg (List.map (·.1)) hroots
  obtain ⟨root, hroot, hlabel⟩ := List.mem_map.mp (hlabels ▸ List.mem_map_of_mem hway)
  rw [← hlabel, startsAtRoot_label (hlabelled.label root hroot)]

/-- The text for a directory below one of the roots stays the same when the roots and the directory
are moved together. The only directory that is not moved is the one above all others, which is its
own parent. -/
theorem checksumSeed_moved_iff (hlabelled : Labelled roots)
    (hways : ∀ way ∈ ways, way.2.isAbsolute = false) (hq : q.isAbsolute = false)
    (hroots : RootedAt top ways roots) (hpath : Path.ofString path = top.join q)
    (htop' : top'.isAbsolute = true) (hroots' : RootedAt top' ways roots')
    (hpath' : Path.ofString path' = top'.join q)
    (hinside : ∃ root ∈ roots, (Path.ofString root.2).isUnder (Path.ofString path).parent = true) :
    checksumSeed path roots = checksumSeed path' roots' ↔ (q.parts = [] → top'.parts = []) := by
  rw [isSome_of_rooted hroots, hpath] at hinside
  have hmoves := parts_eq_nil_of_seedBelow? hways hq hinside
  rw [seedBelow?_parent hways hq hmoves] at hinside
  obtain ⟨seed, hseed⟩ := Option.isSome_iff_exists.mp hinside
  rw [checksumSeed_of_rooted hroots, checksumSeed_of_rooted hroots', hpath, hpath',
    seedBelow?_parent hways hq hmoves, hseed, Option.getD_some]
  constructor
  · intro heq
    by_contra hstays
    -- Nothing lies above the directory then, so its own text stands for it, which starts at the
    -- root.
    have houtside :
        seedBelow? (ways.map fun way => (way.1, top'.join way.2)) (top'.join q).parent = none := by
      rw [← Option.not_isSome_iff_eq_none]
      exact fun h => hstays (parts_eq_nil_of_seedBelow? hways hq h)
    have habsolute : startsAtRoot (top'.join q).parent.text = true := by
      rw [Path.join_of_relative top' hq]
      exact startsAtRoot_text htop'
    rw [houtside, Option.getD_none] at heq
    rw [← heq, startsAtRoot_of_seedBelow? hlabelled hroots hseed] at habsolute
    cases habsolute
  · intro hmoves'
    rw [seedBelow?_parent hways hq hmoves', hseed, Option.getD_some]

/-! ## Checksums -/

/-- A path and roots that are found from one directory. -/
structure FoundFrom (top : Path) (ways : List (String × Path)) (q : Path)
    (roots : List (String × String)) (path : String) : Prop where
  roots : RootedAt top ways roots
  path : Path.ofString path = top.join q

namespace Graph

/-- The checksum for a path that lies below one of the roots stays the same when the path and the
roots are moved together to another directory, unless the path is that of the directory above all
others and no longer so after the move. Two paths in different directories have different texts for
their checksums. -/
theorem checksum_of_roots (g : Graph) (t : Target) :
    (∀ (g' : Graph) (t' : Target) (top top' q : Path) (ways : List (String × Path))
      (path path' : String), (∀ way ∈ ways, way.2.isAbsolute = false) → q.isAbsolute = false →
      top'.isAbsolute = true →
      FoundFrom top ways q (g.checksumRoots t) path →
      FoundFrom top' ways q (g'.checksumRoots t') path' →
      (∃ root ∈ g.checksumRoots t,
        (Path.ofString root.2).isUnder (Path.ofString path).parent = true) →
      (checksumSeed path (g.checksumRoots t) = checksumSeed path' (g'.checksumRoots t') ↔
          (q.parts = [] → top'.parts = [])) ∧
        ((q.parts = [] → top'.parts = []) →
          pathChecksum path (g.checksumRoots t) = pathChecksum path' (g'.checksumRoots t') ∧
          requireChecksums [path] (g.checksumRoots t) =
            requireChecksums [path'] (g'.checksumRoots t'))) ∧
    ∀ path path', startsAtRoot path = true → startsAtRoot path' = true →
      (Path.ofString path).parent ≠ (Path.ofString path').parent →
        checksumSeed path (g.checksumRoots t) ≠ checksumSeed path' (g.checksumRoots t) := by
  refine ⟨?moved, ?separated⟩
  case moved =>
    intro g' t' top top' q ways path path' hways hq htop' h h' hinside
    have hiff := checksumSeed_moved_iff (g.labelled_checksumRoots t) hways hq h.roots
        h.path htop' h'.roots
      h'.path hinside
    refine ⟨hiff, fun hmoves => ?_⟩
    have hseed := hiff.mpr hmoves
    refine ⟨by rw [pathChecksum, pathChecksum, hseed], ?_⟩
    simp [requireChecksums, hseed]
  case separated =>
    intro path path' hpath hpath' hne heq
    exact hne ((checksumSeed_eq_iff (g.labelled_checksumRoots t) hpath hpath').mp heq)

/-- A project with the given directories of sources and of what is built. -/
def projectIn (source binary : String) : Graph :=
  ofSettings { sourceDir := source, binaryDir := binary }

/-- A target with the given directories. -/
def targetIn (source binary : String) : Target :=
  { name := "app", sourceDir := source, binaryDir := binary }

/-- A resource file beside the sources of a target that is built in its own directory, before and
after the whole tree is moved, and a resource file that is built. -/
theorem checksum_of_roots_movedTree :
    let g := projectIn "/home/me/app/src" "/home/me/app/src/build"
    let t := targetIn "/home/me/app/src/gui" "/home/me/app/src/gui"
    let g' := projectIn "/ci/src" "/ci/src/build"
    let t' := targetIn "/ci/src/gui" "/ci/src/gui"
    checksumSeed "/home/me/app/src/icons/a.qrc" (g.checksumRoots t) = "ProjectSource/icons" ∧
      pathChecksum "/home/me/app/src/icons/a.qrc" (g.checksumRoots t) =
        pathChecksum "/ci/src/icons/a.qrc" (g'.checksumRoots t') ∧
      checksumSeed "/home/me/app/src/icons/a.qrc" (g.checksumRoots t) ≠
        checksumSeed "/home/me/app/src/build/icons/a.qrc" (g.checksumRoots t) := by
  intro g t g' t'
  have hmoved := (checksum_of_roots g t).1 g' t' ⟨.root, ["home", "me", "app"]⟩ ⟨.root, ["ci"]⟩
    ⟨.relative, ["src", "icons", "a.qrc"]⟩
    [("CurrentSource", ⟨.relative, ["src", "gui"]⟩), ("CurrentBinary", ⟨.relative, ["src", "gui"]⟩),
      ("ProjectSource", ⟨.relative, ["src"]⟩), ("ProjectBinary", ⟨.relative, ["src", "build"]⟩)]
    "/home/me/app/src/icons/a.qrc" "/ci/src/icons/a.qrc" (by decide) rfl rfl
    ⟨by decide +kernel, by decide +kernel⟩ ⟨by decide +kernel, by decide +kernel⟩
      (by decide +kernel)
  exact ⟨by decide +kernel, (hmoved.2 (by decide)).1,
    (checksum_of_roots g t).2 _ _ (by decide) (by decide) (by decide +kernel)⟩

/-- The directory above all others is its own parent, and lies in a project that is all of the tree.
When the project is moved, the directory that stands in its place has a parent, which the move
leaves behind. -/
theorem checksum_of_roots_wholeTree :
    let g := projectIn "/" "/"
    let t := targetIn "/" "/"
    let g' := projectIn "/x" "/x"
    let t' := targetIn "/x" "/x"
    let ways := ["CurrentSource", "CurrentBinary", "ProjectSource", "ProjectBinary"].map
      fun label =>
      (label, (⟨.relative, []⟩ : Path))
    FoundFrom ⟨.root, []⟩ ways ⟨.relative, []⟩ (g.checksumRoots t) "/" ∧
      FoundFrom ⟨.root, ["x"]⟩ ways ⟨.relative, []⟩ (g'.checksumRoots t') "/x" ∧
      (∃ root ∈ g.checksumRoots t,
        (Path.ofString root.2).isUnder (Path.ofString "/").parent = true) ∧
      pathChecksum "/" (g.checksumRoots t) ≠ pathChecksum "/x" (g'.checksumRoots t') := by
  intro g t g' t' ways
  exact ⟨⟨by decide +kernel, by decide +kernel⟩,
    ⟨by decide +kernel, by decide +kernel⟩, by decide +kernel,
    by decide +kernel⟩

end Graph

end Autogen
