import Autogen.FileSystem.Canonical
import Autogen.Proofs.FileSystem.Walk
import Autogen.Proofs.Outcome

/-!
# Canonical paths in a tree that has grown

A canonical path is found by following links, and links neither come nor go when a tree grows. So a
path is resolved the same way after growth. The one thing that can be different is the question
asked in the end: where the resolution broke off in a loop of links, directories that were made
since may lead on into the loop.

## Main definitions

* `Unlinked` — a path that is walked through without meeting a link.
* `Straight` — a path on which there is no link at all.

## Main statements

* `resolve_grows` — paths are resolved the same way in a tree that has grown.
* `canonicalPath_grows` — canonical paths in a tree that has grown.
-/

namespace Autogen

namespace FileSystem

variable [Environment] {fs fs' : FileSystem} {name : String} {here place : Path}

/-! ## Resolving -/

/-- A path from a start that is walked through without meeting a link. -/
def Unlinked (fs : FileSystem) (p : Path) : Prop :=
  ∃ (s : Start) (names : List String), p = s.path names ∧ s.Stands fs ∧
    (∀ n ∈ names, IsEntryName n) ∧ Free fs s names

theorem unlinked_root (fs : FileSystem) : fs.Unlinked ⟨.root, []⟩ :=
  ⟨.root, [], rfl, .inl rfl, fun _ hn => absurd hn List.not_mem_nil, free_nil⟩

theorem unlinked_working (h : fs.find? Path.workingDirectory.parts = some .directory) :
    fs.Unlinked ⟨.relative, []⟩ :=
  ⟨.working, [], rfl, .inr h, fun _ hn => absurd hn List.not_mem_nil, free_nil⟩

/-- Above a path without links there is none either. -/
theorem Unlinked.above (h : fs.Unlinked here) : fs.Unlinked (above here) := by
  obtain ⟨s, names, rfl, hs, hnames, hfree⟩ := h
  rcases List.eq_nil_or_concat names with rfl | ⟨front, last, rfl⟩
  · cases s with
    | root => exact unlinked_root fs
    | working =>
      refine ⟨.above 0, [], rfl, .inr (hs.directory rfl), hnames, free_nil⟩
    | above levels =>
      refine ⟨.above (levels + 1), [], ?_, .inr (hs.directory rfl), hnames, free_nil⟩
      have hlast : ((Start.above levels).path []).parts.getLast? = some ".." := by
        simp [Start.path, Start.ups, List.replicate_succ']
      rw [FileSystem.above, if_pos ⟨rfl, by rw [hlast]; rfl⟩]
      simp [Start.path, Start.ups, Start.anchor, List.replicate_succ']
  · rw [List.concat_eq_append] at hnames hfree ⊢
    have hlast : (s.path (front ++ [last])).parts.getLast? = some last := by
      rw [Start.path, ← List.append_assoc, List.getLast?_concat]
    have hkept : ¬((s.path (front ++ [last])).parts.getLast?.all (· == "..")) := by
      rw [hlast]
      simpa using (hnames last (by simp)).ne_above
    refine ⟨s, front, ?_, hs, fun n hn => hnames n (List.mem_append_left _ hn), hfree.of_append⟩
    rw [FileSystem.above, if_neg fun hall => hkept hall.2, Path.parent, Start.path, Start.path,
      ← List.append_assoc, List.dropLast_concat]

/-- A step from a path without links meets the same link in a tree that has grown, or none. -/
theorem Unlinked.step (hgrows : fs.Grows fs') (htree : fs.IsTree) (h : fs.Unlinked here)
    (hname : IsEntryName name) :
    fs'.linkTarget? { here with parts := here.parts ++ [name] } =
        fs.linkTarget? { here with parts := here.parts ++ [name] } ∧
      (fs.linkTarget? { here with parts := here.parts ++ [name] } = none →
        fs.Unlinked { here with parts := here.parts ++ [name] }) := by
  obtain ⟨s, names, rfl, hs, hnames, hfree⟩ := h
  have hpath : { s.path names with parts := (s.path names).parts ++ [name] } =
      s.path (names ++ [name]) := by
    simp only [Start.path, List.append_assoc]
  have hall : ∀ n ∈ names ++ [name], IsEntryName n := by
    intro n hn
    rcases List.mem_append.mp hn with hn | hn
    · exact hnames n hn
    · rwa [List.mem_singleton.mp hn]
  rw [hpath]
  exact ⟨linkTarget?_grows hgrows htree hs hall hfree,
    fun hnone => ⟨s, names ++ [name], rfl, hs, hall, hfree.snoc htree hs hall hnone⟩⟩

/-- The links that are resolved lead to paths without links. -/
def Links.Unlinked (fs : FileSystem) (links : Links) : Prop :=
  ∀ p place, links.get? p = some (some place) → fs.Unlinked place

/-- A resolution that is not broken off arrives at a path without links. -/
def Resolution.Unlinked (fs : FileSystem) : Resolution → Prop
  | .done place links => fs.Unlinked place ∧ Links.Unlinked fs links
  | .stopped _ => True

omit [Environment] in
/-- What is known of the paths that resolved links lead to is known after one more link. -/
theorem Links.forall_insert {P : Path → Prop} {links : Links}
    (h : ∀ p place, links.get? p = some (some place) → P place) (there : Path) {value : Option Path}
    (hvalue : ∀ place, value = some place → P place) :
    ∀ p place, (links.insert there value).get? p = some (some place) → P place := by
  intro p place hplace
  rw [OrderedMap.get?_insert] at hplace
  split at hplace
  · exact hvalue place (Option.some.inj hplace)
  · exact h p place hplace

theorem Links.Unlinked.insert {links : Links} (h : Links.Unlinked fs links) (there : Path)
    {value : Option Path} (hvalue : ∀ place, value = some place → fs.Unlinked place) :
    Links.Unlinked fs (links.insert there value) :=
  Links.forall_insert h there hvalue

/-- Two ways to resolve the targets of links that agree from paths without links on. -/
def Agree (fs : FileSystem) (enter enter' : Path → String → Links → Except PathFault Resolution) :
    Prop :=
  ∀ here target links, fs.Unlinked here → Links.Unlinked fs links →
    enter' here target links = enter here target links ∧
      ∀ r, enter here target links = .ok r → r.Unlinked fs

theorem resolvePieces_grows (hgrows : fs.Grows fs') (htree : fs.IsTree)
    {enter enter' : Path → String → Links → Except PathFault Resolution}
    (henter : Agree fs enter enter') {links : Links} {names : List String}
    (hhere : fs.Unlinked here) (hlinks : Links.Unlinked fs links)
    (hnames : ∀ n ∈ names, '/' ∉ n.toList) :
    fs'.resolvePieces enter' here links names = fs.resolvePieces enter here links names ∧
      ∀ r, fs.resolvePieces enter here links names = .ok r → r.Unlinked fs := by
  induction names generalizing here links with
  | nil =>
    refine ⟨rfl, fun r hr => ?_⟩
    cases hr
    exact ⟨hhere, hlinks⟩
  | cons name rest ih =>
    have hrest : ∀ n ∈ rest, '/' ∉ n.toList := fun n hn => hnames n (List.mem_cons_of_mem _ hn)
    by_cases hdot : name = "" ∨ name = "."
    · simp only [resolvePieces, if_pos hdot]
      exact ih hhere hlinks hrest
    by_cases hup : name = ".."
    · simp only [resolvePieces, if_neg hdot, if_pos hup]
      exact ih hhere.above hlinks hrest
    -- Only here are the trees asked, and from a path without links both of them meet the same.
    have hname : IsEntryName name :=
      ⟨fun h => hdot (.inl h), fun h => hdot (.inr h), hup, hnames name List.mem_cons_self⟩
    obtain ⟨htarget, hstep⟩ := hhere.step hgrows htree hname
    simp only [resolvePieces, if_neg hdot, if_neg hup, htarget]
    cases spellingFault? name with
    | some fault => exact ⟨rfl, fun r hr => by cases hr⟩
    | none =>
      cases hlink : fs.linkTarget? { here with parts := here.parts ++ [name] } with
      | none => exact ih (hstep hlink) hlinks hrest
      | some target =>
        rcases hmet : links.get? { here with parts := here.parts ++ [name] } with _ | _ | place
        · have hbelow :
              Links.Unlinked fs (links.insert { here with parts := here.parts ++ [name] } none) :=
            hlinks.insert _ fun place hplace => by cases hplace
          obtain ⟨heq, hentered⟩ := henter here target _ hhere hbelow
          simp only [heq]
          rcases hr :
            enter here target (links.insert { here with parts := here.parts ++ [name] } none) with
            fault | ⟨place, links'⟩ | text
          · exact ⟨rfl, fun r hr => by cases hr⟩
          · obtain ⟨hplace, hlinks'⟩ := hentered _ hr
            exact ih hplace (hlinks'.insert _ fun other hother => Option.some.inj hother ▸ hplace)
              hrest
          · refine ⟨rfl, fun r hr => ?_⟩
            cases hr
            trivial
        · refine ⟨rfl, fun r hr => ?_⟩
          cases hr
          trivial
        · exact ih (hlinks _ _ hmet) hlinks hrest

theorem unlinked_pieces (hhere : fs.Unlinked here) (text : String) :
    fs.Unlinked (pieces here text).1 := by
  unfold pieces
  simp only
  split
  · exact unlinked_root fs
  · exact hhere

omit [Environment] in
theorem slash_pieces (here : Path) (text : String) :
    ∀ n ∈ (pieces here text).2, '/' ∉ n.toList := by
  have hsplit : ∀ n ∈ Text.splitOn "/" text, '/' ∉ n.toList :=
    fun n hn => Text.not_mem_of_mem_splitOn slash_toList slash_isHoldingPart hn
  unfold pieces
  simp only
  split
  · exact fun n hn => hsplit n (List.mem_of_mem_drop hn)
  · exact hsplit

theorem resolveLink_grows (hgrows : fs.Grows fs') (htree : fs.IsTree) (depth : Nat) :
    Agree fs (fs.resolveLink depth) (fs'.resolveLink depth) := by
  induction depth with
  | zero => exact fun _ _ _ _ _ => ⟨rfl, fun r hr => by cases hr⟩
  | succ depth ih =>
    intro here target links hhere hlinks
    exact resolvePieces_grows hgrows htree ih (unlinked_pieces hhere target) hlinks
      (slash_pieces here target)

/-! ## Absolute paths -/

/-- Whether the tree has what a path is taken from: an absolute path needs nothing, and any other
one the working directory. -/
def Holds (fs : FileSystem) (p : Path) : Prop :=
  p.isAbsolute = true ∨ fs.find? Path.workingDirectory.parts = some .directory

/-- Paths are resolved the same way in a tree that has grown. -/
theorem resolve_grows (hgrows : fs.Grows fs') (htree : fs.IsTree) {p : Path} (hp : fs.Holds p) :
    fs'.resolve p = fs.resolve p ∧ ∀ r, fs.resolve p = .ok r → r.Unlinked fs := by
  have hempty : Links.Unlinked fs .empty := fun other place hplace => by
    rw [OrderedMap.get?_empty] at hplace
    cases hplace
  have hstart : fs.Unlinked (pieces ⟨.relative, []⟩ p.text).1 := by
    rcases hp with habsolute | hworking
    · rw [pieces, if_pos (startsAtRoot_text habsolute)]
      exact unlinked_root fs
    · exact unlinked_pieces (unlinked_working hworking) p.text
  exact resolvePieces_grows hgrows htree (resolveLink_grows hgrows htree linkDepth) hstart hempty
    (slash_pieces _ p.text)

/-! ## What resolving arrives at -/

theorem Resolution.isAbsolute_path (r : Resolution) : r.path.isAbsolute = true := by
  cases r with
  | done place links => exact Path.isAbsolute_collapse place
  | stopped text => exact Path.isAbsolute_collapse (Path.ofString text)

theorem Resolution.Unlinked.names_path {r : Resolution} (h : r.Unlinked fs) :
    ∀ n ∈ r.path.parts, IsEntryName n := by
  cases r with
  | done place links =>
    obtain ⟨⟨s, names, rfl, -, hnames, -⟩, -⟩ := h
    exact Path.names_collapse (s.named_path hnames)
  | stopped text => exact Path.names_collapse (Path.named_ofString text)

/-! ## Straight paths -/

/-- A path of which no part leads to a link. -/
def Straight (fs : FileSystem) (p : Path) : Prop :=
  ∀ first more, p.parts = first ++ more → first ≠ [] →
    ∀ target, fs.find? (first.map settled) ≠ some (.link target)

omit [Environment] in
theorem Straight.grows (hgrows : fs.Grows fs') {p : Path} (h : fs.Straight p) : fs'.Straight p :=
  fun first more heq hfirst target hlink =>
    h first more heq hfirst target ((hgrows.link_iff _ _).mp hlink)

omit [Environment] in
theorem lookupNames_straight {follow : Location → List String → Except Fault Found}
    {here : Location} {names : List String} (hnames : ∀ n ∈ names, IsEntryName n)
    (hstraight : ∀ first more, names = first ++ more → first ≠ [] →
      (∀ n ∈ first, isTooLong n = false) →
      ∀ target, fs.find? (here ++ first.map settled) ≠ some (.link target)) :
    fs.lookupNames .target follow here names ≠ .error .tooManyLinks := by
  induction names generalizing here with
  | nil => simp [lookupNames]
  | cons name rest ih =>
    rw [lookupNames, turn_entry fs .target (by decide) here (hnames name List.mem_cons_self)]
    cases hlong : isTooLong name with
    | true => simp
    | false =>
      rw [if_neg Bool.false_ne_true, meet]
      rcases hthere : fs.find? (here ++ [settled name]) with _ | _ | file | target
      · cases rest <;> simp
      · refine ih (fun n hn => hnames n (List.mem_cons_of_mem _ hn)) fun first more heq
          hfirst hshort target => ?_
        have hmet := hstraight (name :: first) more (by rw [heq]; rfl) (by simp)
          (List.forall_mem_cons.mpr ⟨hlong, hshort⟩) target
        simpa using hmet
      · cases rest <;> simp
      · exact absurd hthere
          (by simpa using hstraight [name] rest rfl (by simp) (by simpa using hlong) target)

theorem namesFromRoot_text {p : Path} (habsolute : p.isAbsolute = true)
    (hnames : ∀ n ∈ p.parts, IsEntryName n) :
    namesFromRoot p.text = p.parts := by
  rw [namesFromRoot, if_pos (startsAtRoot_text habsolute)]
  by_cases hparts : p.parts = []
  · obtain ⟨anchor, parts⟩ := p
    subst hparts
    cases anchor with
    | relative => cases habsolute
    | root => decide
    | doubleRoot => decide
  · exact stepNames_text hparts fun n hn => ⟨(hnames n hn).ne_empty, (hnames n hn).slash⟩

/-- A path without links is looked up without following one. -/
theorem lookup_straight {p : Path} (habsolute : p.isAbsolute = true)
    (hnames : ∀ n ∈ p.parts, IsEntryName n) (hstraight : fs.Straight p) :
    fs.lookup .target p.text ≠ .error .tooManyLinks := by
  rw [lookup, namesFromRoot_text habsolute hnames]
  split
  · simp
  · split
    · simp
    · exact lookupNames_straight hnames fun first more heq hfirst _ =>
        hstraight first more heq hfirst

omit [Environment] in
theorem turn_ne_spelling {ending : Ending} (fault : SpellingFault) (here : Location) (name : String)
    (rest : List String) : fs.turn ending here name rest ≠ .fail (.spelling fault) := by
  have hmeet (there : Location) : fs.meet ending here there rest ≠ .fail (.spelling fault) := by
    unfold meet
    rcases fs.find? there with _ | _ | file | target
    · cases rest <;> simp
    · simp
    · cases rest <;> simp
    · simp only
      split <;> simp
  unfold turn
  split_ifs
  · simp
  · simp
  · simp
  · simp
  · exact hmeet _

omit [Environment] in
theorem lookupNames_ne_spelling {ending : Ending}
    {follow : Location → List String → Except Fault Found} {fault : SpellingFault}
    (hfollow : ∀ here names, follow here names ≠ .error (.spelling fault)) (here : Location)
    (names : List String) :
    fs.lookupNames ending follow here names ≠ .error (.spelling fault) := by
  induction names generalizing here with
  | nil => simp [lookupNames]
  | cons name rest ih =>
    rw [lookupNames]
    split
    · exact ih _
    · simp
    · rename_i other heq
      rintro ⟨⟩
      exact turn_ne_spelling fault here name rest heq
    · exact hfollow _ _

omit [Environment] in
theorem lookupWithin_ne_spelling {ending : Ending} (links : Nat) (fault : SpellingFault)
    (here : Location) (names : List String) :
    fs.lookupWithin ending links here names ≠ .error (.spelling fault) := by
  induction links generalizing here names with
  | zero => exact lookupNames_ne_spelling (fun _ _ => by simp) here names
  | succ links ih => exact lookupNames_ne_spelling ih here names

/-- The spelling of a path is at fault whatever the tree is. -/
theorem lookup_eq_spelling {ending : Ending} {text : String} {fault : SpellingFault} :
    fs.lookup ending text = .error (.spelling fault) ↔ spellingFault? text = some fault := by
  unfold lookup
  split
  · rename_i other heq
    simp [heq]
  · rename_i heq
    rw [heq]
    split
    · simp
    · simpa using lookupWithin_ne_spelling linkLimit fault [] (namesFromRoot text)

/-! ## Canonical paths -/

section canonical

variable {p : Path} {r : Resolution}

theorem canonical_of_error {fault : PathFault} (hr : fs.resolve p = .error fault) :
    fs.canonical p = .error fault := by
  simp only [canonical, hr, bind, Except.bind]

theorem canonical_of_spelling {fault : SpellingFault} (hr : fs.resolve p = .ok r)
    (h : spellingFault? r.path.text = some fault) : fs.canonical p = .error (.spelling fault) := by
  have hlookup : fs.lookup .target r.path.text = .error (.spelling fault) :=
    lookup_eq_spelling.mpr h
  simp only [canonical, hr, bind, Except.bind, hlookup]

theorem canonical_of_loop (hr : fs.resolve p = .ok r)
    (h : fs.lookup .target r.path.text = .error .tooManyLinks) :
    fs.canonical p = .error (.linkLoop r.path.text) := by
  simp only [canonical, hr, bind, Except.bind, h]

theorem canonical_of_ne (hr : fs.resolve p = .ok r) (hspelling : spellingFault? r.path.text = none)
    (h : fs.lookup .target r.path.text ≠ .error .tooManyLinks) : fs.canonical p = .ok r.path := by
  simp only [canonical, hr, bind, Except.bind]
  split
  · exact absurd ‹_› h
  · rename_i fault heq
    rw [lookup_eq_spelling.mp heq] at hspelling
    cases hspelling
  · rfl

end canonical

/-- A text that is the canonical form of a path and still leads to a link on the way. -/
def Tangled (fs : FileSystem) (text : String) : Prop :=
  ∃ p place, fs.canonical p = .ok place ∧ place.text = text ∧ ¬fs.Straight place

/-- The fault that a loop was met at a text that is tangled. -/
def LinkLoop (fs : FileSystem) (fault : PathFault) : Prop :=
  ∃ text, fault = .linkLoop text ∧ fs.Tangled text

/-- Canonical paths in a tree that has grown. -/
theorem canonical_grows (hgrows : fs.Grows fs') (htree : fs.IsTree) {p : Path} (hp : fs.Holds p) :
    Follows fs.LinkLoop (fs.canonical p) (fs'.canonical p) := by
  obtain ⟨heq, hresolved⟩ := resolve_grows hgrows htree hp
  cases hresolve : fs.resolve p with
  | error fault =>
    rw [canonical_of_error hresolve, canonical_of_error (heq.trans hresolve)]
    exact .refl _
  | ok r =>
    have hnames := (hresolved r hresolve).names_path
    rw [hresolve] at heq
    cases hspelling : spellingFault? r.path.text with
    | some fault =>
      rw [canonical_of_spelling hresolve hspelling, canonical_of_spelling heq hspelling]
      exact .refl _
    | none =>
      -- The resolved paths are the same, so only the last look for a loop can tell the trees apart:
      -- a link that led to nothing may lead into a loop once the tree has grown. Then the path
      -- still had a link.
      by_cases hafter : fs'.lookup .target r.path.text = .error .tooManyLinks
      · rw [canonical_of_loop heq hafter]
        by_cases hbefore : fs.lookup .target r.path.text = .error .tooManyLinks
        · rw [canonical_of_loop hresolve hbefore]
          exact .refl _
        · have hplace := canonical_of_ne hresolve hspelling hbefore
          refine .inr ⟨_, ⟨_, rfl, p, r.path, hplace, rfl, fun hstraight => ?_⟩, rfl⟩
          exact lookup_straight r.isAbsolute_path hnames (hstraight.grows hgrows) hafter
      · have hbefore : fs.lookup .target r.path.text ≠ .error .tooManyLinks := by
          intro hloop
          have hcarries :
              Carries (fs.lookup .target r.path.text) (fs'.lookup .target r.path.text) :=
            lookup_grows hgrows r.path.text
          rw [hloop] at hcarries
          rcases hcarries with hmissing | hsame
          · cases hmissing
          · exact hafter hsame
        rw [canonical_of_ne hresolve hspelling hbefore, canonical_of_ne heq hspelling hafter]
        exact .refl _

/-- What a path is taken from is there if it is there for its directory, or for itself. -/
theorem Holds.join {base : Path} (h : fs.Holds base) (p : Path) : fs.Holds (base.join p) := by
  rw [Path.join]
  split
  · exact .inl ‹_›
  · exact h

/-- What a path is taken from is there if it is there for a relative path. -/
theorem Holds.of_relative {p : Path} (h : fs.Holds p) (hrelative : p.anchor = .relative)
    (other : Path) :
    fs.Holds other := by
  refine .inr (h.resolve_left ?_)
  rw [Path.isAbsolute, hrelative]
  exact Bool.false_ne_true

theorem Holds.expandHome {p expanded : Path} (h : fs.Holds p) (heq : p.expandHome = .ok expanded) :
    fs.Holds expanded := by
  unfold Path.expandHome at heq
  split at heq
  · rename_i hrelative _
    exact h.of_relative hrelative expanded
  · cases heq
    exact h

/-- Canonical paths in a tree that has grown, if the tree holds the directory that they are taken
from. -/
theorem canonicalPath_grows (hgrows : fs.Grows fs') (htree : fs.IsTree) {path : String}
    {base : Option String} (hbase : fs.Holds (Path.ofString (base.getD path))) :
    Follows fs.LinkLoop (canonicalPath fs path base) (canonicalPath fs' path base) := by
  refine Follows.bind (.refl _) fun expanded hexpanded => ?_
  refine Follows.bind (canonical_grows hgrows htree ?_) fun place _ => .refl _
  cases base with
  | none => exact hbase.expandHome hexpanded
  | some dir => exact hbase.join expanded

theorem canonical_eq_ok {p place : Path} (h : fs.canonical p = .ok place) :
    ∃ r, fs.resolve p = .ok r ∧ place = r.path := by
  unfold canonical at h
  obtain ⟨r, hr, hplace⟩ := bind_eq_ok.mp h
  refine ⟨r, hr, ?_⟩
  simp only at hplace
  split at hplace
  · cases hplace
  · cases hplace
  · exact (Except.ok.inj hplace).symm

/-- A canonical path spells what a resolution arrives at. -/
theorem resolution_of_canonicalPath {path text : String} {base : Option String}
    (h : canonicalPath fs path base = .ok text) : ∃ p r, fs.resolve p = .ok r ∧
    text = r.path.text := by
  obtain ⟨expanded, -, h⟩ := bind_eq_ok.mp h
  obtain ⟨place, hplace, htext⟩ := bind_eq_ok.mp h
  obtain ⟨r, hr, rfl⟩ := canonical_eq_ok hplace
  exact ⟨_, r, hr, (Except.ok.inj htext).symm⟩

/-- Canonical paths are absolute. -/
theorem startsAtRoot_canonicalPath {path text : String} {base : Option String}
    (h : canonicalPath fs path base = .ok text) : startsAtRoot text = true := by
  obtain ⟨-, r, -, rfl⟩ := resolution_of_canonicalPath h
  exact startsAtRoot_text r.isAbsolute_path

/-- Beside an absolute path, paths are taken from an absolute directory. -/
theorem holds_beside (fs : FileSystem) {file : String} (h : startsAtRoot file = true) :
    fs.Holds (Path.ofString (Path.ofString file).parent.text) := by
  have hparent : (Path.ofString file).parent.isAbsolute = true := (isAbsolute_ofString file).trans h
  exact .inl ((isAbsolute_ofString _).trans (startsAtRoot_text hparent))

end FileSystem

end Autogen
