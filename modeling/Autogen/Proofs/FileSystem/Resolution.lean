import Autogen.Proofs.FileSystem.Canonical
import Mathlib.Data.Nat.Find

/-!
# Where a path leads through links

A walk through a path goes through the target of every link that it meets, to the end, and on from
there. Resolving does the same with a memory: a link that was gone through is not gone through
again, and a link that is met while its own target is gone through ends everything. On a walk that
comes to an end this does not happen. A link below itself would have a walk inside its own walk, on
which links lead into one another less deep; but the walk through it can be chosen such that this
depth is as small as can be.

## Main definitions

* `Resolves` — where a walk comes to an end.
* `Leads` — where the target of a link leads.

## Main statements

* `Resolves.deterministic` — a walk comes to one end.
* `Resolves.preserves` — what holds of every path on a walk.
* `resolve_of_resolves` — resolving a path comes to the end of the walk.
* `resolves_of_resolve` — where resolving arrives, a walk comes to an end.
-/

namespace Autogen

/-- What is called by a name in a directory. -/
abbrev Path.child (p : Path) (name : String) : Path :=
  { p with parts := p.parts ++ [name] }

theorem Path.parent_child (p : Path) (name : String) : (p.child name).parent = p := by
  simp [parent]

namespace FileSystem

variable [Environment]

/-- A walk through names from a path free of links, on which links lead into one another no deeper
than given. It ends at a path free of links, or at a name that the system cannot be asked about. -/
inductive Resolves (fs : FileSystem) : Nat → Path → List String → Except SpellingFault Path →
    Prop where
  | arrive (depth : Nat) (here : Path) : Resolves fs depth here [] (.ok here)
  | stay {depth : Nat} {here : Path} {name : String} {rest : List String}
      {out : Except SpellingFault Path}
      (hname : name = "" ∨ name = ".") (hrest : Resolves fs depth here rest out) :
      Resolves fs depth here (name :: rest) out
  | up {depth : Nat} {here : Path} {rest : List String} {out : Except SpellingFault Path}
      (hrest : Resolves fs depth (above here) rest out) : Resolves fs depth here (".." :: rest) out
  | refuse {depth : Nat} {here : Path} {name : String} {rest : List String} {fault : SpellingFault}
      (hname : IsEntryName name) (hfault : spellingFault? name = some fault) :
      Resolves fs depth here (name :: rest) (.error fault)
  | enter {depth : Nat} {here : Path} {name : String} {rest : List String}
      {out : Except SpellingFault Path}
      (hname : IsEntryName name) (hspelling : spellingFault? name = none)
      (hlink : fs.linkTarget? (here.child name) = none)
        (hrest : Resolves fs depth (here.child name) rest out) :
      Resolves fs depth here (name :: rest) out
  | follow {depth below : Nat} {here place : Path} {name target : String} {rest : List String}
      {out : Except SpellingFault Path} (hname : IsEntryName name)
        (hspelling : spellingFault? name = none)
      (hlink : fs.linkTarget? (here.child name) = some target) (hdepth : below < depth)
      (htarget : Resolves fs below (pieces here target).1 (pieces here target).2 (.ok place))
      (hrest : Resolves fs depth place rest out) : Resolves fs depth here (name :: rest) out
  | fail {depth below : Nat} {here : Path} {name target : String} {rest : List String}
      {fault : SpellingFault}
      (hname : IsEntryName name) (hspelling : spellingFault? name = none)
      (hlink : fs.linkTarget? (here.child name) = some target) (hdepth : below < depth)
      (htarget : Resolves fs below (pieces here target).1 (pieces here target).2 (.error fault)) :
      Resolves fs depth here (name :: rest) (.error fault)

/-- Where the target of a link leads from the directory of the link. -/
def Leads (fs : FileSystem) (depth : Nat) (there : Path) (out : Except SpellingFault Path) : Prop :=
  ∃ target, fs.linkTarget? there = some target ∧
    fs.Resolves depth (pieces there.parent target).1 (pieces there.parent target).2 out

variable {fs : FileSystem} {depth : Nat} {here place : Path} {name : String} {names : List String}
  {out : Except SpellingFault Path}

/-! ## Walks -/

/-- A walk comes to one end. -/
theorem Resolves.deterministic (h : fs.Resolves depth here names out) {depth' : Nat}
    {out' : Except SpellingFault Path} (h' : fs.Resolves depth' here names out') : out = out' := by
  -- The next name and what it leads to tell which step is taken, so both walks take the same one.
  induction h generalizing depth' out' with
  | arrive => cases h'; rfl
  | stay hname _ ih =>
    cases h' with
    | stay _ hrest => exact ih hrest
    | up => simp at hname
    | refuse hentry | enter hentry | follow hentry | fail hentry =>
        exact absurd hname hentry.not_dot
  | up _ ih =>
    cases h' with
    | stay hname => simp at hname
    | up hrest => exact ih hrest
    | refuse hentry | enter hentry | follow hentry | fail hentry => exact absurd rfl hentry.ne_above
  | refuse hentry hfault =>
    cases h' with
    | stay hname => exact absurd hname hentry.not_dot
    | up => exact absurd rfl hentry.ne_above
    | refuse | enter | follow | fail => simp_all
  | enter hentry hspelling hlink _ ih =>
    cases h' with
    | stay hname => exact absurd hname hentry.not_dot
    | up => exact absurd rfl hentry.ne_above
    | enter _ _ _ hrest => exact ih hrest
    | refuse | follow | fail => simp_all
  | follow hentry hspelling hlink _ _ _ ihtarget ihrest =>
    cases h' with
    | stay hname => exact absurd hname hentry.not_dot
    | up => exact absurd rfl hentry.ne_above
    | refuse | enter => simp_all
    | follow _ _ hlink' _ htarget hrest =>
      cases hlink.symm.trans hlink'
      cases ihtarget htarget
      exact ihrest hrest
    | fail _ _ hlink' _ htarget =>
      cases hlink.symm.trans hlink'
      cases ihtarget htarget
  | fail hentry hspelling hlink _ _ ihtarget =>
    cases h' with
    | stay hname => exact absurd hname hentry.not_dot
    | up => exact absurd rfl hentry.ne_above
    | refuse | enter => simp_all
    | follow _ _ hlink' _ htarget =>
      cases hlink.symm.trans hlink'
      cases ihtarget htarget
    | fail _ _ hlink' _ htarget =>
      cases hlink.symm.trans hlink'
      cases ihtarget htarget
      rfl

/-- Links may lead into one another deeper than they do. -/
theorem Resolves.mono (h : fs.Resolves depth here names out) {depth' : Nat} (hle : depth ≤ depth') :
    fs.Resolves depth' here names out := by
  induction h generalizing depth' with
  | arrive _ here => exact .arrive depth' here
  | stay hname _ ih => exact .stay hname (ih hle)
  | up _ ih => exact .up (ih hle)
  | refuse hname hfault => exact .refuse hname hfault
  | enter hname hspelling hlink _ ih => exact .enter hname hspelling hlink (ih hle)
  | follow hname hspelling hlink hdepth htarget _ _ ih =>
    exact .follow hname hspelling hlink (hdepth.trans_le hle) htarget (ih hle)
  | fail hname hspelling hlink hdepth htarget =>
    exact .fail hname hspelling hlink (hdepth.trans_le hle) htarget

omit [Environment] in
theorem pieces_eq_or (here : Path) (text : String) : (pieces here text).1 = ⟨.root, []⟩ ∨
    (pieces here text).1 = here := by
  unfold pieces
  simp only
  split
  · exact .inl rfl
  · exact .inr rfl

/-- What holds of the root, of the directory above a path of which it holds, and of an entry that is
no link, holds of every path on a walk. -/
theorem Resolves.preserves {P : Path → Prop} (hroot : P ⟨.root, []⟩)
    (habove : ∀ p, P p → P (above p)) (hchild : ∀ p name, P p → IsEntryName name →
      spellingFault? name = none →
      fs.linkTarget? (p.child name) = none → P (p.child name))
    (h : fs.Resolves depth here names (.ok place)) (hhere : P here) : P place := by
  generalize hout : Except.ok place = out at h
  induction h generalizing place with
  | arrive =>
    cases hout
    exact hhere
  | stay _ _ ih => exact ih hhere hout
  | up _ ih => exact ih (habove _ hhere) hout
  | refuse => cases hout
  | enter hname hspelling hlink _ ih => exact ih (hchild _ _ hhere hname hspelling hlink) hout
  | @follow _ _ here _ _ target _ _ _ _ _ _ _ _ ihtarget ihrest =>
    have hstart : P (pieces here target).1 := by
      rcases pieces_eq_or here target with heq | heq
      · rwa [heq]
      · rwa [heq]
    exact ihrest (ihtarget hstart rfl) hout
  | fail => cases hout

/-- The target of a link is gone through from the directory of the link. -/
theorem leads_child {target : String} (hlink : fs.linkTarget? (here.child name) = some target) :
    fs.Leads depth (here.child name) out ↔
    fs.Resolves depth (pieces here target).1 (pieces here target).2 out := by
  unfold Leads
  simp only [hlink, Option.some.injEq, exists_eq_left', Path.parent_child]

theorem Leads.deterministic {there : Path} (h : fs.Leads depth there out) {depth' : Nat}
    {out' : Except SpellingFault Path} (h' : fs.Leads depth' there out') : out = out' := by
  obtain ⟨target, hlink, htarget⟩ := h
  obtain ⟨target', hlink', htarget'⟩ := h'
  cases hlink.symm.trans hlink'
  exact htarget.deterministic htarget'

/-- Of all walks through the target of a link there is one on which links lead into one another
least. -/
theorem Leads.exists_least {there : Path} (h : fs.Leads depth there out) :
    ∃ least ≤ depth, fs.Leads least there out ∧
      ∀ less < least, ∀ other, ¬fs.Leads less there other := by
  classical
  have hexists : ∃ depth out, fs.Leads depth there out := ⟨depth, out, h⟩
  obtain ⟨other, hother⟩ := Nat.find_spec hexists
  refine ⟨Nat.find hexists, Nat.find_min' hexists ⟨out, h⟩, ?_, fun less hless other hleads => ?_⟩
  · rwa [h.deterministic hother]
  · exact Nat.find_min hexists hless ⟨other, hleads⟩

/-! ## Resolving with a memory of links -/

/-- The links that are remembered as resolved lead where they do. -/
def Links.Sound (fs : FileSystem) (links : Links) : Prop :=
  ∀ there place, links.get? there = some (some place) → ∃ depth, fs.Leads depth there (.ok place)

/-- The links that are gone through at the moment do not lead anywhere as long as links lead into
one another less deep. -/
def Links.Ahead (fs : FileSystem) (depth : Nat) (links : Links) : Prop :=
  ∀ there, links.get? there = some none → ∀ less < depth, ∀ out, ¬fs.Leads less there out

/-- No other links are gone through than before. -/
def Links.Within (links' links : Links) : Prop :=
  ∀ there, links'.get? there = some none → links.get? there = some none

/-- What resolving from a memory of links comes to where a walk comes to an end. -/
inductive Reports (fs : FileSystem) (fuel depth : Nat) (links : Links) :
    Except SpellingFault Path → Except PathFault Resolution → Prop where
  | done {place : Path} {links' : Links} (sound : Links.Sound fs links')
      (within : Links.Within links' links) :
      Reports fs fuel depth links (.ok place) (.ok (.done place links'))
  | refused (fault : SpellingFault) :
      Reports fs fuel depth links (.error fault) (.error (.spelling fault))
  | tooDeep {out : Except SpellingFault Path} (h : fuel < depth) :
      Reports fs fuel depth links out (.error .tooDeep)

theorem Reports.within {fuel : Nat} {links links' : Links} {res : Except PathFault Resolution}
    (h : fs.Reports fuel depth links' out res) (hwithin : Links.Within links' links) :
    fs.Reports fuel depth links out res := by
  cases h with
  | done hsound hwithin' =>
    exact .done hsound fun there hthere => hwithin there (hwithin' there hthere)
  | refused fault => exact .refused fault
  | tooDeep h => exact .tooDeep h

theorem Links.Sound.insert {links : Links} (h : Links.Sound fs links) (there : Path)
    {value : Option Path} (hvalue : ∀ place, value = some place →
      ∃ depth, fs.Leads depth there (.ok place)) :
    Links.Sound fs (links.insert there value) := by
  intro other place hplace
  rw [OrderedMap.get?_insert] at hplace
  split at hplace
  · rename_i heq
    exact heq ▸ hvalue place (Option.some.inj hplace)
  · exact h other place hplace

theorem Links.Ahead.of_within {links links' : Links} (h : Links.Ahead fs depth links)
    (hwithin : Links.Within links' links) : Links.Ahead fs depth links' :=
  fun there hthere => h there (hwithin there hthere)

omit [Environment] in
/-- A link that is resolved is no longer gone through. -/
theorem Links.Within.insert {links links' : Links} {there : Path}
    (h : Links.Within links' (links.insert there none)) (place : Path) :
    Links.Within (links'.insert there (some place)) links := by
  intro other hother
  rw [OrderedMap.get?_insert] at hother
  split at hother
  · cases hother
  · rename_i hne
    have hbefore := h other hother
    rwa [OrderedMap.get?_insert, if_neg hne] at hbefore

/-- A way to resolve names that comes to the end of walks on which links lead into one another less
deep than given. -/
def ReportsBelow (fs : FileSystem) (depth : Nat) : Prop :=
  ∀ below < depth, ∀ (fuel : Nat) {here : Path} {names : List String}
    {out : Except SpellingFault Path} {links : Links}, fs.Resolves below here names out →
      Links.Sound fs links → Links.Ahead fs below links →
      fs.Reports fuel below links out (fs.resolvePieces (fs.resolveLink fuel) here links names)

/-- A link that is not remembered is gone through. -/
theorem resolveLink_reports (hbelow : fs.ReportsBelow depth) (fuel : Nat) {below : Nat}
    (hdepth : below < depth) {target : String} {links : Links}
    (hlink : fs.linkTarget? (here.child name) = some target)
    (htarget : fs.Resolves below (pieces here target).1 (pieces here target).2 out)
    (hsound : Links.Sound fs links) (hahead : Links.Ahead fs depth links) :
    fs.Reports fuel depth (links.insert (here.child name) none) out
      (fs.resolveLink fuel here target (links.insert (here.child name) none)) := by
  obtain ⟨least, hle, hleast, hless⟩ := ((leads_child hlink).mpr htarget).exists_least
  have hsound' : Links.Sound fs (links.insert (here.child name) none) :=
    hsound.insert _ fun _ h => by cases h
  have hahead' : Links.Ahead fs least (links.insert (here.child name) none) := by
    intro there hthere less hlt other
    rw [OrderedMap.get?_insert] at hthere
    split at hthere
    · rename_i heq
      exact heq ▸ hless less hlt other
    · exact hahead there hthere less (by omega) other
  cases fuel with
  | zero => exact .tooDeep (by omega)
  | succ fuel =>
    have hreports := hbelow least (hle.trans_lt hdepth) fuel ((leads_child hlink).mp hleast)
        hsound' hahead'
    change fs.Reports
      _ _ _ _ (fs.resolvePieces (fs.resolveLink fuel) (pieces here target).1
        _ (pieces here target).2)
    generalize fs.resolvePieces _ _ _ _ = res at hreports ⊢
    cases hreports with
    | done hsound hwithin => exact .done hsound hwithin
    | refused fault => exact .refused fault
    | tooDeep h => exact .tooDeep (by omega)

theorem resolvePieces_reports {fuel : Nat} {links : Links} (hbelow : fs.ReportsBelow depth)
    (h : fs.Resolves depth here names out) (hsound : Links.Sound fs links)
    (hahead : Links.Ahead fs depth links) :
    fs.Reports fuel depth links out (fs.resolvePieces (fs.resolveLink fuel) here links names) := by
  induction h generalizing links with
  | arrive _ here => exact .done hsound fun _ hthere => hthere
  | stay hname _ ih =>
    rw [resolvePieces, if_pos hname]
    exact ih hbelow hsound hahead
  | up _ ih =>
    rw [resolvePieces, if_neg (by simp), if_pos rfl]
    exact ih hbelow hsound hahead
  | refuse hname hfault =>
    rw [resolvePieces, if_neg hname.not_dot, if_neg hname.ne_above]
    simp only [hfault]
    exact .refused _
  | enter hname hspelling hlink _ ih =>
    rw [resolvePieces, if_neg hname.not_dot, if_neg hname.ne_above]
    simp only [hspelling, hlink]
    exact ih hbelow hsound hahead
  | @follow depth below here place name target rest out hname hspelling hlink hdepth
      htarget hrest _ ih =>
    have hleads : fs.Leads below (here.child name) (.ok place) := (leads_child hlink).mpr htarget
    rw [resolvePieces, if_neg hname.not_dot, if_neg hname.ne_above]
    -- The link was not met before, is being gone through, or was resolved. A link that is being
    -- gone through leads nowhere at this depth, and one that was resolved leads where the walk
    -- finds it to lead.
    rcases hmet : links.get? (here.child name) with _ | _ | other
    · have hentered := resolveLink_reports hbelow fuel hdepth hlink htarget hsound hahead
      simp only [hspelling, hlink, hmet]
      generalize fs.resolveLink fuel here target _ = res at hentered ⊢
      cases hentered with
      | done hsound' hwithin =>
        have hwithin' := hwithin.insert place
        exact (ih hbelow (hsound'.insert _ fun other hother =>
          ⟨below, Option.some.inj hother ▸ hleads⟩)
          (hahead.of_within hwithin')).within hwithin'
      | tooDeep h => exact .tooDeep h
    · exact absurd hleads (hahead _ hmet below hdepth _)
    · obtain ⟨_, hother⟩ := hsound _ _ hmet
      cases hleads.deterministic hother
      simp only [hspelling, hlink, hmet]
      exact ih hbelow hsound hahead
  | @fail depth below here name target rest fault hname hspelling hlink hdepth htarget _ =>
    have hleads : fs.Leads below (here.child name) (.error fault) := (leads_child hlink).mpr htarget
    rw [resolvePieces, if_neg hname.not_dot, if_neg hname.ne_above]
    rcases hmet : links.get? (here.child name) with _ | _ | other
    · have hentered := resolveLink_reports hbelow fuel hdepth hlink htarget hsound hahead
      simp only [hspelling, hlink, hmet]
      generalize fs.resolveLink fuel here target _ = res at hentered ⊢
      cases hentered with
      | refused => exact .refused fault
      | tooDeep h => exact .tooDeep h
    · exact absurd hleads (hahead _ hmet below hdepth _)
    · obtain ⟨_, hother⟩ := hsound _ _ hmet
      cases hleads.deterministic hother

theorem reportsBelow (fs : FileSystem) (depth : Nat) : fs.ReportsBelow depth := by
  induction depth with
  | zero => exact fun below hbelow => absurd hbelow below.not_lt_zero
  | succ depth ih =>
    intro below hbelow _ _ _ _ _ hwalk hsound hahead
    rcases Nat.lt_succ_iff_lt_or_eq.mp hbelow with hlt | rfl
    · exact ih below hlt _ hwalk hsound hahead
    · exact resolvePieces_reports ih hwalk hsound hahead

/-- Where a walk through a path comes to an end. A relative path is told from where it starts. -/
def ResolvesTo (fs : FileSystem) (depth : Nat) (p : Path) (out : Except SpellingFault Path) :
    Prop :=
  fs.Resolves depth (pieces ⟨.relative, []⟩ p.text).1 (pieces ⟨.relative, []⟩ p.text).2 out

theorem Links.sound_empty (fs : FileSystem) : Links.Sound fs .empty := fun there place h => by
  rw [OrderedMap.get?_empty] at h
  cases h

/-- Resolving a path comes to the end of the walk, unless links lead into one another too deep. -/
theorem resolve_of_resolves {p : Path} (h : fs.ResolvesTo depth p out) :
    fs.Reports linkDepth depth .empty out (fs.resolve p) := by
  refine resolvePieces_reports (reportsBelow fs depth) h (Links.sound_empty fs)
    fun there hthere => ?_
  rw [OrderedMap.get?_empty] at hthere
  cases hthere

/-! ## Walks told by resolving -/

/-- A way to resolve the targets of links that arrives where walks come to an end. -/
def Faithful (fs : FileSystem) (enter : Path → String → Links → Except PathFault Resolution) :
    Prop :=
  ∀ {here target links place links'}, Links.Sound fs links → enter here target links =
    .ok (.done place links') →
    (∃ depth, fs.Resolves depth (pieces here target).1 (pieces here target).2 (.ok place)) ∧
    Links.Sound fs links'

theorem resolves_of_resolvePieces {enter : Path → String → Links → Except PathFault Resolution}
    (henter : fs.Faithful enter) {links links' : Links} (hsound : Links.Sound fs links)
    (hnames : ∀ n ∈ names, '/' ∉ n.toList)
    (h : fs.resolvePieces enter here links names = .ok (.done place links')) :
    (∃ depth, fs.Resolves depth here names (.ok place)) ∧ Links.Sound fs links' := by
  induction names generalizing here links with
  | nil =>
    cases h
    exact ⟨⟨0, .arrive 0 _⟩, hsound⟩
  | cons name rest ih =>
    obtain ⟨hslash, hrest⟩ := List.forall_mem_cons.mp hnames
    rw [resolvePieces] at h
    split at h
    · rename_i hname
      obtain ⟨⟨depth, hwalk⟩, hsound'⟩ := ih hsound hrest h
      exact ⟨⟨depth, .stay hname hwalk⟩, hsound'⟩
    rename_i hdot
    split at h
    · rename_i hname
      subst hname
      obtain ⟨⟨depth, hwalk⟩, hsound'⟩ := ih hsound hrest h
      exact ⟨⟨depth, .up hwalk⟩, hsound'⟩
    rename_i hup
    have hname : IsEntryName name := ⟨fun h => hdot (.inl h), fun h => hdot (.inr h), hup, hslash⟩
    -- Behind a link the walk goes on from where its target leads, on which links may lead deeper
    -- than after it.
    have hfollow {target : String} {below : Nat} {mid : Path} {links : Links}
        (hspelling : spellingFault? name = none)
          (hlink : fs.linkTarget? (here.child name) = some target)
        (htarget : fs.Resolves below (pieces here target).1 (pieces here target).2 (.ok mid))
        (hsound : Links.Sound fs links)
          (h : fs.resolvePieces enter mid links rest = .ok (.done place links')) :
        (∃ depth, fs.Resolves depth here (name :: rest) (.ok place)) ∧ Links.Sound fs links' := by
      obtain ⟨⟨depth, hwalk⟩, hsound'⟩ := ih hsound hrest h
      exact ⟨⟨max (below + 1) depth,
        .follow hname hspelling hlink (by omega) htarget (hwalk.mono (by omega))⟩,
        hsound'⟩
    simp only at h
    split at h
    · cases h
    · rename_i hspelling hlink
      obtain ⟨⟨depth, hwalk⟩, hsound'⟩ := ih hsound hrest h
      exact ⟨⟨depth, .enter hname hspelling hlink hwalk⟩, hsound'⟩
    · rename_i target mid hspelling hlink hmet
      obtain ⟨below, hleads⟩ := hsound _ _ hmet
      exact hfollow hspelling hlink ((leads_child hlink).mp hleads) hsound h
    · cases h
    · rename_i target hspelling hlink hmet
      split at h
      · rename_i mid links'' hentered
        obtain ⟨⟨below, htarget⟩, hsound''⟩ :=
          henter (hsound.insert _ fun _ h => by cases h) hentered
        refine hfollow hspelling hlink htarget (hsound''.insert _ fun other hother => ?_) h
        exact ⟨below, (leads_child hlink).mpr (Option.some.inj hother ▸ htarget)⟩
      · cases h
      · cases h

theorem faithful_resolveLink (fs : FileSystem) (depth : Nat) :
    fs.Faithful (fs.resolveLink depth) := by
  induction depth with
  | zero => exact fun _ h => by cases h
  | succ depth ih =>
    intro here target links place links' hsound h
    exact resolves_of_resolvePieces ih hsound (slash_pieces here target) h

/-- Where resolving arrives, a walk comes to an end. -/
theorem resolves_of_resolve {p : Path} {links : Links}
    (h : fs.resolve p = .ok (.done place links)) :
    ∃ depth, fs.ResolvesTo depth p (.ok place) :=
  (resolves_of_resolvePieces (faithful_resolveLink fs linkDepth) (Links.sound_empty fs)
    (slash_pieces _ p.text) h).1

end FileSystem

end Autogen
