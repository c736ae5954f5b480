import Autogen.Proofs.FileSystem.Growth
import Autogen.Proofs.FileSystem.Spelling

/-!
# Paths without links on the way

A path that is walked through from the root or from the working directory without meeting a link
leads to the location that its names spell. A link there is found, whatever directories are made
before it is looked for.

## Main definitions

* `Start` — where such a path starts.
* `Free` — no place on the way of a path is a link, as far as the system can be asked about it.

## Main statements

* `linkTarget?_eq_some` — the links that are found behind a path without links.
* `linkTarget?_grows` — they are found again in a tree that has grown.
-/

namespace Autogen.FileSystem

/-- Where a path without links starts: at the root, in the working directory, or above it. -/
inductive Start where
  | root
  | working
  | above (levels : Nat)

namespace Start

/-- The anchor of paths from a start. -/
def anchor : Start → Path.Anchor
  | root => .root
  | _ => .relative

/-- The parent names that spell a start. -/
def ups : Start → List String
  | above levels => List.replicate (levels + 1) ".."
  | _ => []

/-- The path of some names from a start. -/
def path (s : Start) (names : List String) : Path :=
  ⟨s.anchor, s.ups ++ names⟩

variable [Environment]

/-- The location of a start. Above the root is the root. -/
def location : Start → Location
  | root => []
  | working => Path.workingDirectory.parts
  | above levels => Path.workingDirectory.parts.rdrop (levels + 1)

/-- There is a directory at a start, and at the working directory if that is where it is told
from. -/
def Stands (s : Start) (fs : FileSystem) : Prop :=
  s.anchor = .root ∨ fs.find? Path.workingDirectory.parts = some .directory

end Start

variable {fs fs' : FileSystem} {s : Start} {names front : List String} {name : String}

/-- No place on the way of a path is a link, as far as the system can be asked about it. -/
def Free [Environment] (fs : FileSystem) (s : Start) (names : List String) : Prop :=
  ∀ first more, names = first ++ more → first ≠ [] → Passable (s.path first) →
    ∀ target, fs.find? (s.location ++ first.map settled) ≠ some (.link target)

/-! ## Walking -/

theorem turn_entry (fs : FileSystem) (ending : Ending) (hending : ending ≠ .creation)
    (here : Location) (h : IsEntryName name) (rest : List String) :
    fs.turn ending here name rest =
      if isTooLong name then .fail .nameTooLong
      else fs.meet ending here (here ++ [settled name]) rest := by
  rw [turn, if_neg h.not_dot, if_neg h.ne_above, if_neg fun hcreation => hending hcreation.1]

/-- A link at which a walk without links ends is at the location that the names spell. -/
theorem lookupNames_link_eq_ok {follow : Location → List String → Except Fault Found}
    {here loc : Location} {target : String} (hnames : ∀ n ∈ names, IsEntryName n)
    (hfree : ∀ first more, names = first ++ more → first ≠ [] → more ≠ [] →
      (∀ n ∈ first, isTooLong n = false) →
        ∀ target, fs.find? (here ++ first.map settled) ≠ some (.link target))
    (h : fs.lookupNames .link follow here names = .ok ⟨loc, some (.link target)⟩)
    (hhere : ∀ target, fs.find? here ≠ some (.link target)) :
    (∀ n ∈ names, isTooLong n = false) ∧ loc = here ++ names.map settled := by
  induction names generalizing here with
  | nil =>
    simp only [lookupNames, Except.ok.injEq, Found.mk.injEq] at h
    exact absurd h.2 (hhere target)
  | cons name rest ih =>
    rw [lookupNames, turn_entry fs .link (by decide) here (hnames name List.mem_cons_self)] at h
    cases hlong : isTooLong name with
    | true =>
      rw [hlong, if_pos rfl] at h
      cases h
    | false =>
      rw [hlong, if_neg Bool.false_ne_true, meet] at h
      -- Only a directory leads on, and only a link with no name behind it is what was found.
      rcases hthere : fs.find? (here ++ [settled name]) with _ | _ | file | other
      · cases hrest : rest.isEmpty <;> simp [hthere, hrest] at h
      · simp only [hthere] at h
        obtain ⟨hrest, hloc⟩ := ih (fun n hn => hnames n (List.mem_cons_of_mem _ hn))
          (fun first more heq hfirst hmore hshort target => by
            have := hfree (name :: first) more (by rw [heq]; rfl) (by simp) hmore
              (fun n hn => by
                rcases List.mem_cons.mp hn with rfl | hn
                · exact hlong
                · exact hshort n hn) target
            simpa using this) h (by simp [hthere])
        refine ⟨fun n hn => ?_, by simpa using hloc⟩
        rcases List.mem_cons.mp hn with rfl | hn
        · exact hlong
        · exact hrest n hn
      · cases hrest : rest.isEmpty <;> simp [hthere, hrest] at h
      · simp only [hthere] at h
        by_cases hrest : rest = []
        · subst hrest
          simp only [List.isEmpty_nil, decide_true, Bool.and_self, if_true] at h
          cases h
          exact ⟨by simpa using hlong, by simp⟩
        · have hmet := hfree [name] rest rfl (by simp) hrest (by simpa using hlong) other
          exact absurd hthere (by simpa using hmet)

theorem map_settled {loc : Location} (h : ∀ n ∈ loc, IsSystemName n) : loc.map settled = loc :=
  (List.map_congr_left fun n hn => (h n hn).settled_eq).trans (List.map_id' loc)

theorem IsTree.find?_of_append (htree : fs.IsTree) {above below : Location} (hne : below ≠ [])
    (h : (fs.find? (above ++ below)).isSome) : fs.find? above = some .directory := by
  induction below using List.reverseRecOn with
  | nil => exact absurd rfl hne
  | append_singleton below last ih =>
    have hparent := htree (above ++ (below ++ [last])) (by simp) h
    rw [← List.append_assoc, List.dropLast_concat] at hparent
    by_cases hbelow : below = []
    · simpa [hbelow] using hparent
    · exact ih hbelow (by simp [hparent])

/-- A walk comes to the link at the location that its names spell. -/
theorem lookupNames_link_of_find? (htree : fs.IsTree)
    (follow : Location → List String → Except Fault Found) {here : Location} {target : String}
    (hne : names ≠ []) (hnames : ∀ n ∈ names, IsEntryName n)
    (hshort : ∀ n ∈ names, isTooLong n = false)
    (h : fs.find? (here ++ names.map settled) = some (.link target)) :
    fs.lookupNames .link follow here names =
      .ok ⟨here ++ names.map settled, some (.link target)⟩ := by
  induction names generalizing here with
  | nil => exact absurd rfl hne
  | cons name rest ih =>
    rw [lookupNames, turn_entry fs .link (by decide) here (hnames name List.mem_cons_self),
      hshort name List.mem_cons_self, if_neg Bool.false_ne_true, meet]
    by_cases hrest : rest = []
    · subst hrest
      have hthere : fs.find? (here ++ [settled name]) = some (.link target) := h
      simp [hthere]
    · have hloc : here ++ (name :: rest).map settled = (here ++ [settled name]) ++
          rest.map settled := by
        simp
      rw [hloc] at h ⊢
      have hsome : (fs.find? ((here ++ [settled name]) ++ rest.map settled)).isSome := by
        rw [h]
        rfl
      have hthere : fs.find? (here ++ [settled name]) = some .directory :=
        htree.find?_of_append (by simpa using hrest) hsome
      simp only [hthere]
      exact ih hrest (fun n hn => hnames n (List.mem_cons_of_mem _ hn))
        (fun n hn => hshort n (List.mem_cons_of_mem _ hn)) h

/-! ## Links behind a path without links -/

theorem lookupWithin_entry (links : Nat) (here : Location) (h : IsEntryName name)
    (hshort : isTooLong name = false) (hthere : fs.find? (here ++ [settled name]) = some .directory)
    (rest : List String) :
    fs.lookupWithin .link links here (name :: rest) =
      fs.lookupWithin .link links (here ++ [settled name]) rest := by
  have hturn : fs.turn .link here name rest = .on (here ++ [settled name]) := by
    rw [turn_entry fs .link (by decide) here h, hshort, if_neg Bool.false_ne_true, meet, hthere]
  cases links with
  | zero => simp only [lookupWithin, lookupNames, hturn]
  | succ links => simp only [lookupWithin, lookupNames, hturn]

theorem lookupWithin_up (links : Nat) (here : Location) (rest : List String) :
    fs.lookupWithin .link links here (".." :: rest) =
      fs.lookupWithin .link links here.dropLast rest := by
  have hturn : fs.turn .link here ".." rest = .on here.dropLast := by
    rw [turn, if_neg (by decide), if_pos rfl]
  cases links with
  | zero => simp only [lookupWithin, lookupNames, hturn]
  | succ links => simp only [lookupWithin, lookupNames, hturn]

/-- Parent names lead up from a directory, and no further than to the root. -/
theorem lookupWithin_ups (links levels : Nat) (here : Location) (rest : List String) :
    fs.lookupWithin .link links here (List.replicate levels ".." ++ rest) =
      fs.lookupWithin .link links (here.rdrop levels) rest := by
  induction levels generalizing here with
  | zero => rw [List.rdrop_zero, List.replicate_zero, List.nil_append]
  | succ levels ih =>
    have hrdrop : here.rdrop (levels + 1) = here.dropLast.rdrop levels := by
      rcases List.eq_nil_or_concat here with rfl | ⟨front, last, rfl⟩
      · rw [List.dropLast_nil, List.rdrop_nil, List.rdrop_nil]
      · rw [List.concat_eq_append, List.rdrop_concat_succ, List.dropLast_concat]
    rw [List.replicate_succ, List.cons_append, lookupWithin_up, ih, hrdrop]

theorem IsTree.directory_of_prefix (htree : fs.IsTree) {above loc : Location}
    (habove : above <+: loc) (h : fs.find? loc = some .directory) :
    fs.find? above = some .directory := by
  obtain ⟨below, rfl⟩ := habove
  by_cases hne : below = []
  · rwa [hne, List.append_nil] at h
  · exact htree.find?_of_append hne (by rw [h]; rfl)

/-- The names that the system gives for a directory lead into it. -/
theorem lookupWithin_into (htree : fs.IsTree) (links : Nat) {here front : Location}
    (hnames : ∀ n ∈ front, IsSystemName n) (h : fs.find? (here ++ front) = some .directory)
    (rest : List String) :
    fs.lookupWithin .link links here (front ++ rest) =
      fs.lookupWithin .link links (here ++ front) rest := by
  induction front generalizing here with
  | nil => rw [List.nil_append, List.append_nil]
  | cons name front ih =>
    obtain ⟨hname, hfront⟩ := List.forall_mem_cons.mp hnames
    have hloc : here ++ name :: front = (here ++ [name]) ++ front := by simp
    rw [hloc] at h ⊢
    have hthere : fs.find? (here ++ [settled name]) = some .directory := by
      rw [hname.settled_eq]
      exact htree.directory_of_prefix (List.prefix_append _ front) h
    rw [List.cons_append, lookupWithin_entry links here hname.toIsEntryName hname.short hthere,
      hname.settled_eq]
    exact ih hfront h

theorem Start.eq_of_mem_ups {n : String} (hn : n ∈ s.ups) : n = ".." := by
  cases s with
  | root => exact absurd hn List.not_mem_nil
  | working => exact absurd hn List.not_mem_nil
  | above levels => exact List.eq_of_mem_replicate hn

theorem Start.mem_path (hnames : ∀ n ∈ names, IsEntryName n) {n : String}
    (hn : n ∈ (s.path names).parts) : n ≠ "" ∧ n ≠ "." ∧ '/' ∉ n.toList := by
  rcases List.mem_append.mp hn with hn | hn
  · rw [Start.eq_of_mem_ups hn]
    decide
  · exact ⟨(hnames n hn).ne_empty, (hnames n hn).ne_here, (hnames n hn).slash⟩

theorem Start.named_path (s : Start) (hnames : ∀ n ∈ names, IsEntryName n) : (s.path names).Named :=
  fun _ hn => Start.mem_path hnames hn

theorem not_mem_of_isEntryName (hnames : ∀ n ∈ names, IsEntryName n) : ".." ∉ names :=
  fun hup => (hnames _ hup).ne_above rfl

variable [Environment]

theorem Start.Stands.directory (hs : s.Stands fs) (hrelative : s.anchor = .relative) :
    fs.find? Path.workingDirectory.parts = some .directory := by
  rcases hs with hroot | hdirectory
  · rw [hrelative] at hroot
    cases hroot
  · exact hdirectory

/-- A path from a start is walked through from the location of the start. -/
theorem lookupWithin_path (htree : fs.IsTree) (hs : s.Stands fs) (links : Nat) (hne : names ≠ [])
    (hnames : ∀ n ∈ names, IsEntryName n) :
    fs.lookupWithin .link links [] (namesFromRoot (s.path names).text) =
      fs.lookupWithin .link links s.location names := by
  have hparts : ∀ n ∈ (s.path names).parts, n ≠ "" ∧ '/' ∉ n.toList := fun n hn =>
    (Start.mem_path hnames hn).imp_right And.right
  have hsome : (s.path names).parts ≠ [] := by simp [Start.path, hne]
  have hsteps := stepNames_text hsome hparts
  have hinto (hstands : fs.find? Path.workingDirectory.parts = some .directory)
      (rest : List String) : fs.lookupWithin .link links [] (Path.workingDirectory.parts ++ rest) =
        fs.lookupWithin .link links Path.workingDirectory.parts rest :=
    lookupWithin_into htree links Environment.isSystemName (by rwa [List.nil_append]) rest
  rw [namesFromRoot, hsteps]
  cases s with
  | root =>
    have hroot : startsAtRoot (Start.root.path names).text = true := startsAtRoot_text rfl
    rw [if_pos hroot]
    rfl
  | working =>
    have hrelative : startsAtRoot (Start.working.path names).text = false :=
      startsAtRoot_text_relative hsome hparts
    rw [hrelative, if_neg Bool.false_ne_true]
    exact hinto (hs.directory rfl) names
  | above levels =>
    have hrelative : startsAtRoot ((Start.above levels).path names).text = false :=
      startsAtRoot_text_relative hsome hparts
    rw [hrelative, if_neg Bool.false_ne_true]
    exact (hinto (hs.directory rfl) _).trans (lookupWithin_ups links (levels + 1) _ names)

/-- The location of a start that is told from the working directory lies at or above it. -/
theorem Start.location_prefix (s : Start) (hrelative : s.anchor = .relative) :
    s.location <+: Path.workingDirectory.parts := by
  cases s with
  | root => cases hrelative
  | working => exact List.prefix_rfl
  | above levels => exact List.take_prefix _ _

theorem Start.find?_location (htree : fs.IsTree) (hs : s.Stands fs) :
    fs.find? s.location = some .directory := by
  by_cases hrelative : s.anchor = .relative
  · exact htree.directory_of_prefix (s.location_prefix hrelative) (hs.directory hrelative)
  · cases s with
    | root => rfl
    | working | above => exact absurd rfl hrelative

/-! ## Absolute forms -/

theorem Start.isSystemName_location (s : Start) : ∀ n ∈ s.location, IsSystemName n := by
  cases s with
  | root => exact nofun
  | working => exact Environment.isSystemName
  | above levels => exact fun n hn => Environment.isSystemName n (List.mem_of_mem_take hn)

/-- A path from a start is made absolute by the location of the start. -/
theorem Start.collapse_path (s : Start) (hnames : ∀ n ∈ names, IsEntryName n) :
    (s.path names).collapse = ⟨.root, s.location ++ names⟩ := by
  have hup := not_mem_of_isEntryName hnames
  have hworking : ".." ∉ Path.workingDirectory.parts :=
    not_mem_of_isEntryName fun n hn => (Environment.isSystemName n hn).toIsEntryName
  cases s with
  | root => exact Path.collapse_of_not_mem rfl hup
  | working =>
    have hstack : Path.collapseOnto [] (Path.workingDirectory.parts ++ names) =
        Path.workingDirectory.parts ++ names :=
      Path.collapseOnto_of_not_mem (by simp [hworking, hup]) []
    exact congrArg (Path.mk .root) hstack
  | above levels =>
    have hstack : Path.collapseOnto []
        (Path.workingDirectory.parts ++ (List.replicate (levels + 1) ".." ++ names)) =
          Path.workingDirectory.parts.rdrop (levels + 1) ++ names := by
      rw [Path.collapseOnto_append, Path.collapseOnto_of_not_mem hworking,
        Path.collapseOnto_replicate, Path.collapseOnto_of_not_mem hup, List.reverse_nil,
        List.nil_append, List.rdrop_eq_reverse_drop_reverse]
    exact congrArg (Path.mk .root) hstack

theorem Start.passable_iff :
    Passable (s.path names) ↔ Spellable (s.path names) ∧ ∀ n ∈ names, isTooLong n = false := by
  refine ⟨fun h => ⟨h.toSpellable, fun n hn => h.names n (List.mem_append_right _ hn)⟩,
    fun ⟨hspellable, hshort⟩ => ⟨hspellable, fun n hn => ?_⟩⟩
  rcases List.mem_append.mp hn with hn | hn
  · rw [Start.eq_of_mem_ups hn]
    decide
  · exact hshort n hn

theorem Start.spellable_of_append {first more : List String} (hfirst : first ≠ [])
    (hnames : ∀ n ∈ first ++ more, IsEntryName n) (h : Spellable (s.path (first ++ more))) :
    Spellable (s.path first) := by
  obtain ⟨hspelling, hlength⟩ := h
  constructor
  · rw [Start.path, ← List.append_assoc] at hspelling
    exact spellingFault?_text_of_append (by simp [hfirst]) hspelling
  · rw [s.collapse_path hnames, ← List.append_assoc] at hlength
    rw [s.collapse_path fun n hn => hnames n (List.mem_append_left _ hn)]
    exact isPathTooLong_text_of_append (by simp [hfirst]) hlength

/-- The links that are found behind a path without links are those at the locations that the names
spell, as far as the system can be asked about them. -/
theorem linkTarget?_eq_some (htree : fs.IsTree) (hs : s.Stands fs)
    (hnames : ∀ n ∈ front ++ [name], IsEntryName n) (hfree : Free fs s front) {text : String} :
    fs.linkTarget? (s.path (front ++ [name])) = some text ↔
      Passable (s.path (front ++ [name])) ∧
        ∃ target, fs.find? (s.location ++ (front ++ [name]).map settled) = some (.link target) ∧
          text = settled target := by
  have hne : front ++ [name] ≠ [] := by simp
  have hread := Path.ofString_text (s.named_path hnames)
  have hwalk : fs.lookupWithin .link linkLimit [] (namesFromRoot (s.path (front ++ [name])).text) =
      fs.lookupNames .link (fs.lookupWithin .link 39) s.location (front ++ [name]) :=
    lookupWithin_path htree hs linkLimit hne hnames
  rw [Start.passable_iff]
  constructor
  · intro h
    obtain ⟨loc, target, hlookup, htext⟩ : ∃ loc target,
        fs.lookup .link (s.path (front ++ [name])).text = .ok ⟨loc, some (.link target)⟩ ∧
          text = settled target := by
      unfold linkTarget? at h
      split at h
      · rename_i loc target hlookup
        exact ⟨loc, target, hlookup, (Option.some.inj h).symm⟩
      · cases h
    obtain ⟨hspelling, hlength, hwithin⟩ := lookup_eq_ok hlookup
    rw [hwalk] at hwithin
    rw [hread] at hlength
    have hspellable : Spellable (s.path (front ++ [name])) := ⟨hspelling, hlength⟩
    -- The last name may be a link, so the walk is free of links in front of it only.
    have hmet : ∀ first more, front ++ [name] = first ++ more → first ≠ [] → more ≠ [] →
        (∀ n ∈ first, isTooLong n = false) →
          ∀ target, fs.find? (s.location ++ first.map settled) ≠ some (.link target) := by
      intro first more heq hfirst hmore hshort
      have hfront : front = first ++ more.dropLast := by
        have hlast := congrArg List.dropLast heq
        rwa [List.dropLast_concat, List.dropLast_append_of_ne_nil hmore] at hlast
      rw [heq] at hspellable hnames
      exact hfree first more.dropLast hfront hfirst
        (Start.passable_iff.mpr ⟨Start.spellable_of_append hfirst hnames hspellable, hshort⟩)
    obtain ⟨hshort, hloc⟩ := lookupNames_link_eq_ok hnames hmet hwithin fun target => by
      simp [Start.find?_location htree hs]
    have harrives := (lookup_arrives hlookup).node
    rw [hloc] at harrives
    exact ⟨⟨hspellable, hshort⟩, target, harrives.symm, htext⟩
  · rintro ⟨⟨hspellable, hshort⟩, target, hlink, rfl⟩
    have hwithin := lookupNames_link_of_find? htree (fs.lookupWithin .link 39)
        hne hnames hshort hlink
    rw [linkTarget?, lookup, hspellable.spelling, hread,
      if_neg (by simp [hspellable.length]), hwalk,
      hwithin]

/-! ## In a tree that has grown -/

theorem Start.Stands.grows (h : fs.Grows fs') (hs : s.Stands fs) : s.Stands fs' :=
  hs.imp_right (h.directory _)

theorem Free.grows (h : fs.Grows fs') (hfree : Free fs s names) : Free fs' s names :=
  fun first more heq hfirst hpassable target hlink =>
    hfree first more heq hfirst hpassable target ((h.link_iff _ _).mp hlink)

/-- Behind a path without links, the same links are found in a tree that has grown. -/
theorem linkTarget?_grows (h : fs.Grows fs') (htree : fs.IsTree) (hs : s.Stands fs)
    (hnames : ∀ n ∈ front ++ [name], IsEntryName n) (hfree : Free fs s front) :
    fs'.linkTarget? (s.path (front ++ [name])) = fs.linkTarget? (s.path (front ++ [name])) := by
  refine Option.ext fun text => ?_
  rw [linkTarget?_eq_some htree hs hnames hfree,
    linkTarget?_eq_some (h.tree htree) (hs.grows h) hnames (hfree.grows h)]
  refine and_congr_right fun _ => exists_congr fun target => and_congr_left fun _ => ?_
  exact h.link_iff _ _

/-- A path without links goes on without links where no link is found. -/
theorem Free.snoc (htree : fs.IsTree) (hs : s.Stands fs)
    (hnames : ∀ n ∈ front ++ [name], IsEntryName n) (hfree : Free fs s front)
    (hnone : fs.linkTarget? (s.path (front ++ [name])) = none) : Free fs s (front ++ [name]) := by
  intro first more heq hfirst hpassable target hlink
  by_cases hmore : more = []
  · subst hmore
    rw [List.append_nil] at heq
    subst heq
    have hsome := (linkTarget?_eq_some htree hs hnames hfree).mpr ⟨hpassable, target, hlink, rfl⟩
    rw [hnone] at hsome
    cases hsome
  · have hlast := congrArg List.dropLast heq
    rw [List.dropLast_concat, List.dropLast_append_of_ne_nil hmore] at hlast
    exact hfree first more.dropLast hlast hfirst hpassable target hlink

theorem Free.of_append {more : List String} (hfree : Free fs s (front ++ more)) : Free fs s front :=
  fun first rest heq hfirst hpassable target =>
    hfree first (rest ++ more) (by rw [heq, List.append_assoc]) hfirst hpassable target

theorem free_nil : Free fs s [] :=
  fun _ _ heq hfirst => absurd (List.append_eq_nil_iff.mp heq.symm).1 hfirst

end Autogen.FileSystem
