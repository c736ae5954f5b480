import Autogen.Proofs.FileSystem.Resolution
import Autogen.Proofs.Path.Collapse

/-!
# Canonical paths are their own

Where a walk comes to an end, the path that it arrives at has no link on it, and names alone. A walk
through such a path arrives at the path itself. A walk of a relative path is told from the working
directory, though, and what it arrives at is made absolute by its text. That is the same place if
the working directory is there.

## Main definitions

* `IsResolved` — a path from the root with nothing on it to resolve.
* `Adrift`, `Reached` — the paths on a walk, also where there is no working directory.
* `Grounded` — a path that is the same place when it is told from the root.
* `taken` — a path as it is taken from a directory.

## Main statements

* `isResolved_collapse` — the end of a walk has nothing on it to resolve when it is made absolute.
* `IsResolved.canonical` — a path with nothing on it to resolve is its own canonical form.
* `canonicalPath_fixed` — canonical paths, where walks come to an end.
* `canonicalPath_strayTree` — what comes of a relative path where there is no working directory.
-/

namespace Autogen

open FileSystem

section

variable [Environment]

namespace FileSystem

variable {fs : FileSystem} {depth : Nat} {p place : Path} {s : Start} {names : List String}
  {out : Except SpellingFault Path}

/-! ## Paths with nothing to resolve -/

/-- A path from the root of names alone that can be spelled, on which there is no link. -/
structure IsResolved (fs : FileSystem) (p : Path) : Prop where
  anchor : p.anchor = .root
  names : ∀ n ∈ p.parts, IsEntryName n
  spelling : ∀ n ∈ p.parts, spellingFault? n = none
  free : Free fs .root p.parts

theorem IsResolved.eq_root (h : fs.IsResolved p) : p = ⟨.root, p.parts⟩ := by
  rw [← h.anchor]

theorem IsResolved.isAbsolute (h : fs.IsResolved p) : p.isAbsolute = true := by
  rw [Path.isAbsolute, h.anchor]
  rfl

theorem IsResolved.named (h : fs.IsResolved p) : p.Named :=
  fun n hn => ⟨(h.names n hn).ne_empty, (h.names n hn).ne_here, (h.names n hn).slash⟩

theorem IsResolved.collapse (h : fs.IsResolved p) : p.collapse = p :=
  Path.collapse_of_not_mem h.isAbsolute fun hup => (h.names _ hup).ne_above rfl

/-- No part of the path is a link. -/
theorem IsResolved.linkTarget?_eq_none (h : fs.IsResolved p) (htree : fs.IsTree) {above : Path}
    (habove : above.isUnder p = true) : fs.linkTarget? above = none := by
  obtain ⟨anchor, parts⟩ := above
  simp only [Path.isUnder, Bool.and_eq_true, beq_iff_eq, List.isPrefixOf_iff_prefix] at habove
  obtain ⟨rfl, more, hparts⟩ := habove
  rw [h.anchor]
  have hfree := h.free
  have hnames := h.names
  rw [← hparts] at hfree hnames
  rcases List.eq_nil_or_concat parts with rfl | ⟨front, last, rfl⟩
  · have hcollapse : (Path.ofString (Path.text ⟨.root, []⟩)).collapse = ⟨.root, []⟩ :=
      Path.collapse_of_not_mem rfl List.not_mem_nil
    have hroot : fs.lookup .link (Path.text ⟨.root, []⟩) = .ok ⟨[], some .directory⟩ := by
      rw [lookup, hcollapse]
      rfl
    rw [linkTarget?, hroot]
  · rw [List.concat_eq_append] at hfree hnames ⊢
    refine Option.eq_none_iff_forall_ne_some.mpr fun text htext => ?_
    obtain ⟨hpassable, target, hlink, -⟩ := (linkTarget?_eq_some (s := .root) htree (.inl rfl)
      (fun n hn => hnames n (List.mem_append_left _ hn)) hfree.of_append.of_append).mp htext
    exact hfree _ more rfl (by simp) hpassable target hlink

/-- The path is looked up without following a link. -/
theorem IsResolved.lookup_ne (h : fs.IsResolved p) :
    fs.lookup .target p.text ≠ .error .tooManyLinks := by
  rw [lookup, namesFromRoot_text h.isAbsolute h.names, Path.ofString_text h.named]
  split
  · simp
  · rename_i hspelling
    split
    · simp
    · rename_i hlength
      refine lookupNames_straight h.names fun first more heq hfirst hshort target => ?_
      refine h.free first more heq hfirst (Start.passable_iff.mpr ⟨?_, hshort⟩) target
      have hspellable : Spellable p := ⟨hspelling, Bool.eq_false_iff.mpr hlength⟩
      have hnames := h.names
      rw [heq] at hnames
      rw [h.eq_root, heq] at hspellable
      exact Start.spellable_of_append (s := .root) hfirst hnames hspellable

omit [Environment] in
theorem pieces_text_root (here : Path) {parts : List String}
    (hparts : ∀ n ∈ parts, '/' ∉ n.toList) :
    pieces here (Path.text ⟨.root, parts⟩) = (⟨.root, []⟩, if parts = [] then [""] else parts) := by
  have htext : Path.text ⟨.root, parts⟩ = "/" ++ Text.join "/" parts := rfl
  rw [pieces, if_pos (startsAtRoot_text rfl), htext, splitOn_slash_append,
    List.drop_one, List.tail_cons]
  by_cases hne : parts = []
  · subst hne
    rfl
  · rw [if_neg hne, Text.splitOn_join slash_toList slash_isHoldingPart hne hparts]

/-- A walk through the path arrives at the path. -/
theorem IsResolved.resolvesTo (h : fs.IsResolved p) (htree : fs.IsTree) :
    fs.ResolvesTo 0 p (.ok p) := by
  have hwalk (front names : List String) (heq : p.parts = front ++ names) :
      fs.Resolves 0 ⟨.root, front⟩ names (.ok p) := by
    induction names generalizing front with
    | nil =>
      rw [List.append_nil] at heq
      rw [h.eq_root, heq]
      exact .arrive 0 _
    | cons name rest ih =>
      have hmem : name ∈ p.parts := by simp [heq]
      have habove : Path.isUnder (Path.child ⟨.root, front⟩ name) p = true := by
        simp [Path.isUnder, h.anchor, heq]
      refine .enter (h.names name hmem) (h.spelling name hmem)
        (h.linkTarget?_eq_none htree habove) ?_
      exact ih (front ++ [name]) (by simp [heq])
  have hpieces := pieces_text_root ⟨.relative, []⟩ fun n hn => (h.names n hn).slash
  rw [← h.eq_root] at hpieces
  rw [ResolvesTo, hpieces]
  by_cases hne : p.parts = []
  · simp only [hne, if_true]
    exact .stay (.inl rfl) (hwalk [] [] hne)
  · simp only [hne, if_false]
    exact hwalk [] p.parts rfl

/-! ## Where walks end -/

/-- A relative path where there is no working directory that it could be taken from. -/
structure Adrift (fs : FileSystem) (p : Path) : Prop where
  working : fs.find? Path.workingDirectory.parts ≠ some .directory
  anchor : p.anchor = .relative
  names : ∀ n ∈ p.parts, n = ".." ∨ IsEntryName n

/-- There is no link at the working directory, nor on the way to it. -/
def WorkingUnlinked (fs : FileSystem) : Prop :=
  ∀ loc, loc <+: Path.workingDirectory.parts → ∀ target, fs.find? loc ≠ some (.link target)

/-- A path that is the same place when its text is taken from the root: it starts at the root; or it
lies below the working directory, and there is no link on the way to that; or the working directory
is there. -/
inductive Grounded (fs : FileSystem) (p : Path) : Prop where
  | root (h : p.anchor = .root)
  | below (h : fs.WorkingUnlinked) (hup : ".." ∉ p.parts)
  | working (h : fs.find? Path.workingDirectory.parts = some .directory)

/-- What is known of the paths on a walk. -/
structure Reached (fs : FileSystem) (p : Path) : Prop where
  spelling : ∀ n ∈ p.parts, spellingFault? n = none
  place : fs.Unlinked p ∨ fs.Adrift p

theorem Adrift.above (h : fs.Adrift p) : fs.Adrift (above p) := by
  unfold FileSystem.above
  split
  · refine ⟨h.working, h.anchor, fun n hn => ?_⟩
    rcases List.mem_append.mp hn with hn | hn
    · exact h.names n hn
    · exact .inl (List.mem_singleton.mp hn)
  · exact ⟨h.working, h.anchor, fun n hn => h.names n (List.mem_of_mem_dropLast hn)⟩

theorem Adrift.child (h : fs.Adrift p) {name : String} (hname : IsEntryName name) :
    fs.Adrift (p.child name) := by
  refine ⟨h.working, h.anchor, fun n hn => ?_⟩
  rcases List.mem_append.mp hn with hn | hn
  · exact h.names n hn
  · exact .inr (List.mem_singleton.mp hn ▸ hname)

theorem Reached.above (h : fs.Reached p) : fs.Reached (above p) := by
  refine ⟨fun n hn => ?_, h.place.imp Unlinked.above Adrift.above⟩
  unfold FileSystem.above at hn
  split at hn
  · rcases List.mem_append.mp hn with hn | hn
    · exact h.spelling n hn
    · rw [List.mem_singleton.mp hn]
      decide
  · exact h.spelling n (List.mem_of_mem_dropLast hn)

theorem Reached.child (htree : fs.IsTree) (h : fs.Reached p) {name : String}
    (hname : IsEntryName name) (hspelling : spellingFault? name = none)
    (hlink : fs.linkTarget? (p.child name) = none) :
    fs.Reached (p.child name) := by
  refine ⟨fun n hn => ?_, ?_⟩
  · rcases List.mem_append.mp hn with hn | hn
    · exact h.spelling n hn
    · exact List.mem_singleton.mp hn ▸ hspelling
  · exact h.place.imp (fun hunlinked => (hunlinked.step (.refl fs) htree hname).2 hlink)
      fun hadrift =>
      hadrift.child hname

theorem reached_pieces (fs : FileSystem) (text : String) :
    fs.Reached (pieces ⟨.relative, []⟩ text).1 := by
  rcases pieces_eq_or ⟨.relative, []⟩ text with heq | heq
  · rw [heq]
    exact ⟨nofun, .inl (unlinked_root fs)⟩
  · rw [heq]
    refine ⟨nofun, ?_⟩
    by_cases hworking : fs.find? Path.workingDirectory.parts = some .directory
    · exact .inl (unlinked_working hworking)
    · exact .inr ⟨hworking, rfl, nofun⟩

/-- What is known of the path that a walk arrives at. -/
theorem reached_of_resolvesTo (htree : fs.IsTree) (h : fs.ResolvesTo depth p (.ok place)) :
    fs.Reached place := by
  refine h.preserves ⟨nofun, .inl (unlinked_root fs)⟩ (fun _ => Reached.above)
    ?_ (reached_pieces fs p.text)
  exact fun _ _ hreached hname hspelling hlink => hreached.child htree hname hspelling hlink

/-! ## Absolute forms -/

/-- A path without links is without links when it is told from the root. -/
theorem Free.location (htree : fs.IsTree) (hs : s.Stands fs) (hfree : Free fs s names)
    (hnames : ∀ n ∈ names, IsEntryName n) (hspelling : ∀ n ∈ names, spellingFault? n = none) :
    Free fs .root (s.location ++ names) := by
  intro first more heq hfirst hpassable target hlink
  have hsettled := map_settled s.isSystemName_location
  -- On the way to where the path starts there are directories only.
  have hdirectory (habove : first <+: s.location) : False := by
    have hthere := htree.directory_of_prefix habove (Start.find?_location htree hs)
    have hkept : first.map settled = first :=
      map_settled fun n hn => s.isSystemName_location n (habove.mem hn)
    rw [Start.location, List.nil_append, hkept, hthere] at hlink
    cases hlink
  rcases List.append_eq_append_iff.mp heq with ⟨front, rfl, rfl⟩ | ⟨below, hbelow, -⟩
  · by_cases hfront : front = []
    · exact hdirectory (by simp [hfront])
    -- Behind that the same names are gone through, and the path is as long as it is from the start.
    obtain ⟨hspellable, hshort⟩ := Start.passable_iff.mp hpassable
    have hentries : ∀ n ∈ front, IsEntryName n := fun n hn => hnames n (List.mem_append_left _ hn)
    have hall : ∀ n ∈ s.location ++ front, IsEntryName n := fun n hn =>
      (List.mem_append.mp hn).elim (fun hn => (s.isSystemName_location n hn).toIsEntryName)
        (hentries n)
    have hlength := hspellable.length
    rw [Start.root.collapse_path hall, Start.location, List.nil_append, ← s.collapse_path hentries]
      at hlength
    have hspelled : spellingFault? (s.path front).text = none := by
      refine spellingFault?_text fun n hn => ?_
      rcases List.mem_append.mp hn with hn | hn
      · rw [Start.eq_of_mem_ups hn]
        decide
      · exact hspelling n (List.mem_append_left _ hn)
    have hpassable' : Passable (s.path front) :=
      Start.passable_iff.mpr ⟨⟨hspelled, hlength⟩, fun n hn =>
        hshort n (List.mem_append_right _ hn)⟩
    rw [Start.location, List.nil_append, List.map_append, hsettled] at hlink
    exact hfree front more rfl hfront hpassable' target hlink
  · exact hdirectory ⟨below, hbelow.symm⟩

/-- Where nothing that leads on stands at the working directory, there is no link below it. -/
theorem free_of_missing (htree : fs.IsTree)
    (hdirectory : fs.find? Path.workingDirectory.parts ≠ some .directory)
    (hnone : fs.WorkingUnlinked) (names : List String) :
    Free fs .root (Path.workingDirectory.parts ++ names) := by
  intro first more heq hfirst _ target hlink
  have hnolink (habove : first <+: Path.workingDirectory.parts) : False := by
    have hkept : first.map settled = first :=
      map_settled fun n hn => Environment.isSystemName n (habove.mem hn)
    rw [Start.location, List.nil_append, hkept] at hlink
    exact hnone first habove target hlink
  rcases List.append_eq_append_iff.mp heq with ⟨front, rfl, -⟩ | ⟨below, hbelow, -⟩
  · by_cases hfront : front = []
    · exact hnolink (by simp [hfront])
    · have hkept : Path.workingDirectory.parts.map settled = Path.workingDirectory.parts :=
        map_settled Environment.isSystemName
      rw [Start.location, List.nil_append, List.map_append, hkept] at hlink
      have hsome : front.map settled ≠ [] := by simpa using hfront
      exact hdirectory (htree.find?_of_append hsome (by rw [hlink]; rfl))
  · exact hnolink ⟨below, hbelow.symm⟩

theorem isResolved_location (s : Start) (hnames : ∀ n ∈ names, IsEntryName n)
    (hspelling : ∀ n ∈ names, spellingFault? n = none)
    (hfree : Free fs .root (s.location ++ names)) :
    fs.IsResolved (s.path names).collapse := by
  rw [s.collapse_path hnames]
  refine ⟨rfl, fun n hn => ?_, fun n hn => ?_, hfree⟩
  · exact (List.mem_append.mp hn).elim (fun hn => (s.isSystemName_location n hn).toIsEntryName)
      (hnames n)
  · exact (List.mem_append.mp hn).elim (fun hn => (s.isSystemName_location n hn).spelling)
      (hspelling n)

/-- The end of a walk has nothing on it to resolve when it is made absolute. -/
theorem isResolved_collapse (htree : fs.IsTree) (hreached : fs.Reached place)
    (hgrounded : fs.Grounded place) : fs.IsResolved place.collapse := by
  obtain ⟨hspelling, hunlinked | hadrift⟩ := hreached
  · obtain ⟨s, names, rfl, hs, hnames, hfree⟩ := hunlinked
    have hspelling' : ∀ n ∈ names, spellingFault? n = none := fun n hn =>
      hspelling n (List.mem_append_right _ hn)
    exact isResolved_location s hnames hspelling' (hfree.location htree hs hnames hspelling')
  · obtain ⟨hworking, hrelative, hnames⟩ := hadrift
    cases hgrounded with
    | root hroot => cases hrelative.symm.trans hroot
    | working hdirectory => exact absurd hdirectory hworking
    | below hnone hup =>
      obtain ⟨anchor, parts⟩ := place
      obtain rfl : anchor = .relative := hrelative
      refine isResolved_location .working (fun n hn => (hnames n hn).resolve_left ?_) hspelling ?_
      · rintro rfl
        exact hup hn
      · exact free_of_missing htree hworking hnone parts

/-! ## Canonical paths -/

/-- The canonical form of a path is the end of the walk through it. -/
theorem canonical_of_resolvesTo (htree : fs.IsTree) (h : fs.ResolvesTo depth p (.ok place))
    (hgrounded : fs.Grounded place) :
    linkDepth < depth ∧ fs.canonical p = .error .tooDeep ∨ fs.canonical p = .ok place.collapse := by
  have hresolved := isResolved_collapse htree (reached_of_resolvesTo htree h) hgrounded
  have hreports := resolve_of_resolves h
  generalize hr : fs.resolve p = res at hreports
  cases hreports with
  | tooDeep hdepth =>
    exact .inl ⟨hdepth, canonical_of_error hr⟩
  | done =>
    have hspelling : spellingFault? place.collapse.text = none :=
      spellingFault?_text hresolved.spelling
    exact .inr (canonical_of_ne hr hspelling hresolved.lookup_ne)

/-- A walk that ends at a name which the system cannot be asked about has no canonical form. -/
theorem canonical_of_refused {fault : SpellingFault} (h : fs.ResolvesTo depth p (.error fault)) :
    linkDepth < depth ∧ fs.canonical p = .error .tooDeep ∨
    fs.canonical p = .error (.spelling fault) := by
  have hreports := resolve_of_resolves h
  generalize hr : fs.resolve p = res at hreports
  cases hreports with
  | tooDeep hdepth =>
    exact .inl ⟨hdepth, canonical_of_error hr⟩
  | refused =>
    exact .inr (canonical_of_error hr)

/-- A path with nothing on it to resolve is its own canonical form. -/
theorem IsResolved.canonical (h : fs.IsResolved p) (htree : fs.IsTree) :
    fs.canonical p = .ok p := by
  rcases canonical_of_resolvesTo htree (h.resolvesTo htree) (.root h.anchor)
    with ⟨hdepth, -⟩ | hcanonical
  · cases hdepth
  · rwa [h.collapse] at hcanonical

/-- A path as it is taken from a directory, if there is one to take it from. -/
def taken (base : Option String) (p : Path) : Path :=
  match base with
  | some dir => (Path.ofString dir).join p
  | none => p

theorem canonicalPath_of_expandHome {path : String} {base : Option String} {expanded : Path}
    (h : (Path.ofString path).expandHome = .ok expanded) :
    canonicalPath fs path base = (fs.canonical (taken base expanded)).map Path.text := by
  unfold canonicalPath
  rw [h]
  cases base <;> rfl

theorem IsResolved.canonicalPath (h : fs.IsResolved p) (htree : fs.IsTree) (base : Option String) :
    canonicalPath fs p.text base = .ok p.text := by
  have hread : Path.ofString p.text = p := Path.ofString_text h.named
  have hhome : p.expandHome = .ok p := by
    rw [h.eq_root]
    rfl
  have htaken : taken base p = p := by
    cases base with
    | none => rfl
    | some dir => exact if_pos h.isAbsolute
  rw [← hread] at hhome
  rw [canonicalPath_of_expandHome hhome, hread, htaken, h.canonical htree]
  rfl

end FileSystem

/-- Where a walk comes to an end, links lead into one another too deep, or the canonical form is
what the walk arrives at, made absolute: an absolute path of names alone, of which no part is a
link, and which is its own canonical form whatever directory it is taken from. If the walk comes to
a name that the system cannot be asked about, there is no canonical form. -/
theorem canonicalPath_fixed {fs : FileSystem} (htree : fs.IsTree) {path : String}
    {base : Option String} {expanded : Path}
    (hhome : (Path.ofString path).expandHome = .ok expanded) {depth : Nat}
    {out : Except SpellingFault Path} (hwalk : fs.ResolvesTo depth (taken base expanded) out)
    (hgrounded : ∀ place, out = .ok place → fs.Grounded place) :
    (linkDepth < depth ∧ canonicalPath fs path base = .error .tooDeep) ∨
      (∃ fault, out = .error fault ∧ canonicalPath fs path base = .error (.spelling fault)) ∨
      ∃ place text, out = .ok place ∧ text = place.collapse.text ∧
        canonicalPath fs path base = .ok text ∧
        IsClean text ∧ (Path.ofString text).anchor = .root ∧
        (∀ above : Path, above.isUnder (Path.ofString text) = true → fs.linkTarget? above = none) ∧
        ∀ again, canonicalPath fs text again = .ok text := by
  rw [canonicalPath_of_expandHome hhome]
  cases out with
  | error fault =>
    rcases canonical_of_refused hwalk with ⟨hdepth, hcanonical⟩ | hcanonical
    · exact .inl ⟨hdepth, by rw [hcanonical]; rfl⟩
    · exact .inr (.inl ⟨fault, rfl, by rw [hcanonical]; rfl⟩)
  | ok place =>
    have hplace := hgrounded place rfl
    have hresolved := isResolved_collapse htree (reached_of_resolvesTo htree hwalk) hplace
    have hread : Path.ofString place.collapse.text = place.collapse :=
      Path.ofString_text hresolved.named
    rcases canonical_of_resolvesTo htree hwalk hplace with ⟨hdepth, hcanonical⟩ | hcanonical
    · exact .inl ⟨hdepth, by rw [hcanonical]; rfl⟩
    · have hclean : IsClean place.collapse.text := ⟨_, hresolved.isAbsolute, hresolved.names, rfl⟩
      refine .inr
        (.inr ⟨place, _, rfl, rfl, by rw [hcanonical]; rfl, hclean, ?_, ?_,
          hresolved.canonicalPath htree⟩)
      · rw [hread]
        exact hresolved.anchor
      · rw [hread]
        exact fun above habove => hresolved.linkTarget?_eq_none htree habove

end

section

attribute [local instance] Environment.plain

/-- A tree with a link into a link, which has a target from the root, and with a working
directory. -/
def linkedTree : FileSystem :=
  ((((FileSystem.empty.put ["cwd"] .directory).put ["w"] .directory).put ["w", "src"]
    .directory).put ["w", "k"]
    (.link "/w/src")).put ["w", "l"] (.link "src/../k")

/-- A path through the links is resolved, and it stays as it is. -/
theorem canonicalPath_fixed_linkedTree :
    canonicalPath linkedTree "l//a.h" (some "/w") = .ok "/w/src/a.h" ∧ IsClean "/w/src/a.h" ∧
      (∀ above : Path, above.isUnder (Path.ofString "/w/src/a.h") = true →
        linkedTree.linkTarget? above = none) ∧
      ∀ again, canonicalPath linkedTree "/w/src/a.h" again = .ok "/w/src/a.h" := by
  have htree : linkedTree.IsTree := isTree_of_entries (by decide)
  have hcanonical : canonicalPath linkedTree "l//a.h" (some "/w") = .ok "/w/src/a.h" := by
    decide +kernel
  have hhome : (Path.ofString "l//a.h").expandHome = .ok ⟨.relative, ["l", "a.h"]⟩ := by
    decide +kernel
  have htaken : taken (some "/w") ⟨.relative, ["l", "a.h"]⟩ = ⟨.root, ["w", "l", "a.h"]⟩ := by
    decide +kernel
  have hresolve : linkedTree.resolve ⟨.root, ["w", "l", "a.h"]⟩ =
      .ok (.done ⟨.root, ["w", "src", "a.h"]⟩ (.ofList [
        (⟨.root, ["w", "l"]⟩, some ⟨.root, ["w", "src"]⟩),
        (⟨.root, ["w", "k"]⟩, some ⟨.root, ["w", "src"]⟩)])) := by decide +kernel
  obtain ⟨depth, hwalk⟩ := resolves_of_resolve hresolve
  have hfixed := canonicalPath_fixed htree hhome (htaken ▸ hwalk) fun place hplace =>
    .root (by cases hplace; rfl)
  rcases hfixed with ⟨-, hdeep⟩ | ⟨fault, hfault, -⟩ | ⟨place, text, -, -, htext,
    hclean, -, hlinks, hagain⟩
  · cases hcanonical.symm.trans hdeep
  · cases hfault
  · cases hcanonical.symm.trans htext
    exact ⟨hcanonical, hclean, hlinks, hagain⟩

/-- A tree with a link and without a working directory. -/
def strayTree : FileSystem :=
  FileSystem.empty.put ["y"] (.link "/z")

/-- Without a working directory the link that a relative path leads to is not found on a walk. The
walk comes to an end, and the canonical form is a link, which has another canonical form. -/
theorem canonicalPath_strayTree :
    (Path.ofString "../y").expandHome = .ok ⟨.relative, ["..", "y"]⟩ ∧
      (∃ depth place,
        strayTree.ResolvesTo depth (taken none ⟨.relative, ["..", "y"]⟩) (.ok place)) ∧
      canonicalPath strayTree "../y" none = .ok "/y" ∧
      strayTree.linkTarget? (Path.ofString "/y") = some "/z" ∧
      canonicalPath strayTree "/y" none = .ok "/z" :=
  have hresolve : strayTree.resolve ⟨.relative, ["..", "y"]⟩ =
      .ok (.done ⟨.relative, ["..", "y"]⟩ .empty) := by decide +kernel
  have ⟨depth, hwalk⟩ := resolves_of_resolve hresolve
  ⟨by decide +kernel, ⟨depth, _, hwalk⟩, by decide +kernel, by decide +kernel, by decide +kernel⟩

end

end Autogen
