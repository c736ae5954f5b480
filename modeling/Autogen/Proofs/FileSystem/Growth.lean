import Autogen.FileSystem.Lookup
import Mathlib.Data.List.Basic

/-!
# Growth of a tree of files

Writing makes directories and files where nothing was, and changes files. What was found before is
found again then, although it may have become possible to go where nothing was.

## Main definitions

* `IsTree` — every entry stands in a directory.
* `Grows` — a tree with more directories and files and the same links.
* `Carries` — what the outcome of a lookup says about the outcome in a tree that has grown.

## Main statements

* `lookup_arrives` — a lookup arrives in a directory, at what stands there.
* `lookup_grows` — lookups in a tree that has grown.
* `lookup_put` — a file is found under the path under which its place was found.
-/

namespace Autogen.FileSystem

/-- Every entry stands in a directory. -/
def IsTree (fs : FileSystem) : Prop :=
  ∀ loc, loc ≠ [] → (fs.find? loc).isSome → fs.find? loc.dropLast = some .directory

/-- A tree with more directories and files and the same links. -/
structure Grows (fs fs' : FileSystem) : Prop where
  directory : ∀ loc, fs.find? loc = some .directory → fs'.find? loc = some .directory
  file : ∀ loc file, fs.find? loc = some (.file file) → ∃ file', fs'.find? loc = some (.file file')
  link_iff : ∀ loc target, fs'.find? loc = some (.link target) ↔ fs.find? loc = some (.link target)
  tree : fs.IsTree → fs'.IsTree

variable {fs fs' fs'' : FileSystem} {ending : Ending}

/-- A tree is recognised by its entries. -/
theorem isTree_of_entries (h : ∀ loc ∈ fs.entries.keys, fs.find? loc.dropLast = some .directory) :
    fs.IsTree := by
  intro loc hne hsome
  refine h loc ?_
  rw [find?, if_neg hne] at hsome
  by_contra hmem
  rw [OrderedMap.get?_eq_none.mpr hmem] at hsome
  cases hsome

theorem Grows.refl (fs : FileSystem) : fs.Grows fs :=
  ⟨fun _ h => h, fun _ file h => ⟨file, h⟩, fun _ _ => .rfl, fun h => h⟩

theorem Grows.trans (h : fs.Grows fs') (h' : fs'.Grows fs'') : fs.Grows fs'' where
  directory loc hloc := h'.directory loc (h.directory loc hloc)
  file loc file hloc := by
    obtain ⟨file', hfile'⟩ := h.file loc file hloc
    exact h'.file loc file' hfile'
  link_iff loc target := (h'.link_iff loc target).trans (h.link_iff loc target)
  tree htree := h'.tree (h.tree htree)

/-- A node may be put in a directory where there is neither a directory nor a link, and in place of
a file only another file. -/
theorem grows_put {loc : Location} {node : Node} (hne : loc ≠ [])
    (hparent : fs.IsTree → fs.find? loc.dropLast = some .directory)
    (hdirectory : fs.find? loc ≠ some .directory)
    (hlink : ∀ target, fs.find? loc ≠ some (.link target)) (hnode : ∀ target, node ≠ .link target)
    (hfile : ∀ file, fs.find? loc = some (.file file) → ∃ file', node = .file file') :
    fs.Grows (fs.put loc node) := by
  refine ⟨fun other hother => ?_, fun other file hother => ?_, fun other target => ?_,
    fun htree other hother hsome => ?_⟩
  · rw [find?_put fs hne, if_neg]
    · exact hother
    · rintro rfl
      exact hdirectory hother
  · rw [find?_put fs hne]
    split
    · rename_i heq
      obtain ⟨file', rfl⟩ := hfile file (heq ▸ hother)
      exact ⟨file', rfl⟩
    · exact ⟨file, hother⟩
  · rw [find?_put fs hne]
    split
    · rename_i heq
      subst heq
      simp [hnode target, hlink target]
    · rfl
  · have hdir : fs.find? other.dropLast = some .directory := by
      rw [find?_put fs hne] at hsome
      split at hsome
      · rename_i heq
        exact heq ▸ hparent htree
      · exact htree other hother hsome
    rw [find?_put fs hne, if_neg]
    · exact hdir
    · intro heq
      exact hdirectory (heq ▸ hdir)

/-- What is new stands where nothing was, in a directory. -/
theorem grows_put_new {loc : Location} {node : Node} (hnone : fs.find? loc = none)
    (hparent : fs.find? loc.dropLast = some .directory) (hnode : ∀ target, node ≠ .link target) :
    fs.Grows (fs.put loc node) := by
  refine grows_put ?_ (fun _ => hparent) (by simp [hnone]) (by simp [hnone]) hnode (by simp [hnone])
  rintro rfl
  cases hnone

/-- A file may change. -/
theorem grows_put_file {loc : Location} {file file' : File}
    (hfile : fs.find? loc = some (.file file)) : fs.Grows (fs.put loc (.file file')) := by
  have hne : loc ≠ [] := by
    rintro rfl
    cases hfile
  exact grows_put hne (fun htree => htree loc hne (by simp [hfile]))
    (by simp [hfile]) (by simp [hfile])
    (by simp) fun _ _ => ⟨file', rfl⟩

/-! ## Where a lookup arrives -/

/-- A place with what stands there. In a tree the place is in a directory. -/
structure Arrives (fs : FileSystem) (found : Found) : Prop where
  node : found.node = fs.find? found.location
  parent : fs.IsTree → fs.find? found.location.dropLast = some .directory

theorem IsTree.dropLast (htree : fs.IsTree) {loc : Location} (h : fs.find? loc = some .directory) :
    fs.find? loc.dropLast = some .directory := by
  by_cases hne : loc = []
  · subst hne
    rfl
  · exact htree loc hne (by simp [h])

/-- What is known of where a name leads in a tree. -/
def Turn.Arrives (fs : FileSystem) : Turn → Prop
  | .on here | .link here _ => fs.IsTree → fs.find? here = some .directory
  | .stop found => fs.Arrives found
  | .fail _ => True

theorem meet_arrives {here there : Location} (hhere : fs.IsTree → fs.find? here = some .directory)
    (hparent : fs.IsTree → fs.find? there.dropLast = some .directory) (rest : List String) :
    (fs.meet ending here there rest).Arrives fs := by
  unfold meet
  rcases hthere : fs.find? there with _ | _ | file | target
  · simp only
    split
    · exact ⟨hthere.symm, hparent⟩
    · trivial
  · exact fun _ => hthere
  · simp only
    split
    · exact ⟨hthere.symm, hparent⟩
    · trivial
  · simp only
    split
    · exact ⟨hthere.symm, hparent⟩
    · intro htree
      unfold linkStart
      split
      · rfl
      · exact hhere htree

theorem turn_arrives {here : Location} (hhere : fs.IsTree → fs.find? here = some .directory)
    (name : String) (rest : List String) : (fs.turn ending here name rest).Arrives fs := by
  unfold turn
  split_ifs
  · exact hhere
  · exact fun htree => htree.dropLast (hhere htree)
  · trivial
  · trivial
  · exact meet_arrives hhere (by simpa using hhere) rest

theorem lookupNames_arrives {follow : Location → List String → Except Fault Found}
    (hfollow : ∀ here names found, (fs.IsTree → fs.find? here = some .directory) →
      follow here names = .ok found → fs.Arrives found) {here : Location} {names : List String}
    {found : Found} (hhere : fs.IsTree → fs.find? here = some .directory)
    (h : fs.lookupNames ending follow here names = .ok found) : fs.Arrives found := by
  induction names generalizing here with
  | nil =>
    cases h
    exact ⟨rfl, fun htree => htree.dropLast (hhere htree)⟩
  | cons name rest ih =>
    have hturn : (fs.turn ending here name rest).Arrives fs := turn_arrives hhere name rest
    rw [lookupNames] at h
    split at h
    · rename_i there heq
      rw [heq] at hturn
      exact ih hturn h
    · rename_i heq
      rw [heq] at hturn
      cases h
      exact hturn
    · cases h
    · rename_i there names heq
      rw [heq] at hturn
      exact hfollow _ _ _ hturn h

theorem lookupWithin_arrives {links : Nat} {here : Location} {names : List String} {found : Found}
    (hhere : fs.IsTree → fs.find? here = some .directory)
    (h : fs.lookupWithin ending links here names = .ok found) : fs.Arrives found := by
  induction links generalizing here names found with
  | zero => exact lookupNames_arrives (fun _ _ _ _ h => by cases h) hhere h
  | succ links ih => exact lookupNames_arrives (fun _ _ _ hhere h => ih hhere h) hhere h

/-- A lookup goes through names unless the system cannot be asked about the path. -/
theorem lookup_eq_ok [Environment] {text : String} {found : Found}
    (h : fs.lookup ending text = .ok found) :
    spellingFault? text = none ∧ isPathTooLong (Path.ofString text).collapse.text = false ∧
      fs.lookupWithin ending linkLimit [] (namesFromRoot text) = .ok found := by
  unfold lookup at h
  split at h
  · cases h
  · rename_i hspelling
    split at h
    · cases h
    · rename_i hlong
      exact ⟨hspelling, Bool.eq_false_iff.mpr hlong, h⟩

/-- A lookup arrives in a directory, at what stands there. -/
theorem lookup_arrives [Environment] {text : String} {found : Found}
    (h : fs.lookup ending text = .ok found) :
    fs.Arrives found :=
  lookupWithin_arrives (fun _ => rfl) (lookup_eq_ok h).2.2

/-! ## Lookups in a tree that has grown -/

/-- What the outcome of a lookup says about the outcome in a tree that has grown: only where
something was missing may it be another one. -/
def Carries : Except Fault Found → Except Fault Found → Prop
  | .ok ⟨loc, some .directory⟩, res => res = .ok ⟨loc, some .directory⟩
  | .ok ⟨loc, some (.file _)⟩, res => ∃ file, res = .ok ⟨loc, some (.file file)⟩
  | .ok ⟨loc, some (.link target)⟩, res => res = .ok ⟨loc, some (.link target)⟩
  | .ok ⟨_, none⟩, _ => True
  | .error fault, res => fault = .notFound ∨ res = .error fault

/-- What stands somewhere and what stands there after growth. -/
theorem Grows.carries (h : fs.Grows fs') (loc : Location) :
    Carries (.ok ⟨loc, fs.find? loc⟩) (.ok ⟨loc, fs'.find? loc⟩) := by
  rcases hloc : fs.find? loc with _ | _ | file | target
  · trivial
  · rw [h.directory loc hloc]
    rfl
  · obtain ⟨file', hfile'⟩ := h.file loc file hloc
    exact ⟨file', by rw [hfile']⟩
  · rw [(h.link_iff loc target).mpr hloc]
    rfl

/-- Where a name leads in a tree that has grown: somewhere else only where something was missing,
and to another file only where a file was. -/
inductive Turn.Carries : Turn → Turn → Prop where
  | same (turn : Turn) : Carries turn turn
  | missing (turn : Turn) : Carries (.fail .notFound) turn
  | free (loc : Location) (turn : Turn) : Carries (.stop ⟨loc, none⟩) turn
  | file (loc : Location) (old new : File) :
    Carries (.stop ⟨loc, some (.file old)⟩) (.stop ⟨loc, some (.file new)⟩)

theorem meet_grows (h : fs.Grows fs') (here there : Location) (rest : List String) :
    (fs.meet ending here there rest).Carries (fs'.meet ending here there rest) := by
  unfold meet
  rcases hthere : fs.find? there with _ | _ | old | target
  · simp only
    split
    · exact .free there _
    · exact .missing _
  · rw [h.directory there hthere]
    exact .same _
  · obtain ⟨new, hnew⟩ := h.file there old hthere
    rw [hnew]
    simp only
    split
    · exact .file there old new
    · exact .same _
  · rw [(h.link_iff there target).mpr hthere]
    exact .same _

theorem turn_grows (h : fs.Grows fs') (here : Location) (name : String) (rest : List String) :
    (fs.turn ending here name rest).Carries (fs'.turn ending here name rest) := by
  unfold turn
  split_ifs
  · exact .same _
  · exact .same _
  · exact .same _
  · exact .same _
  · exact meet_grows h here _ rest

theorem Carries.refl (res : Except Fault Found) : Carries res res := by
  rcases res with fault | ⟨loc, _ | _ | file | target⟩
  · exact .inr rfl
  · trivial
  · rfl
  · exact ⟨file, rfl⟩
  · rfl

theorem lookupNames_grows (h : fs.Grows fs')
    {follow follow' : Location → List String → Except Fault Found}
    (hfollow : ∀ here names, Carries (follow here names) (follow' here names)) (here : Location)
    (names : List String) :
    Carries (fs.lookupNames ending follow here names)
      (fs'.lookupNames ending follow' here names) := by
  induction names generalizing here with
  | nil => exact h.carries here
  | cons name rest ih =>
    rw [lookupNames, lookupNames]
    have hturn : (fs.turn ending here name rest).Carries (fs'.turn ending here name rest) :=
      turn_grows h here name rest
    generalize fs.turn ending here name rest = turn at hturn ⊢
    generalize fs'.turn ending here name rest = turn' at hturn ⊢
    cases hturn with
    | same =>
      cases turn with
      | on there => exact ih there
      | stop found => exact .refl _
      | fail fault => exact .refl _
      | link there names => exact hfollow there names
    | missing => exact .inl rfl
    | free loc => trivial
    | file loc old new => exact ⟨new, rfl⟩

theorem lookupWithin_grows (h : fs.Grows fs') (links : Nat) (here : Location)
    (names : List String) :
    Carries (fs.lookupWithin ending links here names)
      (fs'.lookupWithin ending links here names) := by
  induction links generalizing here names with
  | zero =>
    refine lookupNames_grows h (fun _ _ => ?_) here names
    exact .inr rfl
  | succ links ih => exact lookupNames_grows h ih here names

/-- Lookups in a tree that has grown. -/
theorem lookup_grows [Environment] (h : fs.Grows fs') (text : String) :
    Carries (fs.lookup ending text) (fs'.lookup ending text) := by
  unfold lookup
  split
  · exact .inr rfl
  · split
    · exact .inr rfl
    · exact lookupWithin_grows h _ _ _

/-! ## Lookups of what was put somewhere -/

/-- Where a name leads that led to a place, once something was put there. -/
def Turn.Puts (loc : Location) (new : Node) (rest : List String) : Turn → Turn → Prop
  | .on here, turn => turn = .on here
  | .stop found, turn => found.location = loc → rest = [] ∧
    match new with
    | .directory => turn = .on loc
    | .file file => turn = .stop ⟨loc, some (.file file)⟩
    | .link _ => True
  | .fail _, _ => True
  | .link here names, turn => turn = .link here names

theorem meet_put {ending' : Ending} (hlink : ending' ≠ .link) {loc : Location} {new : Node}
    (hne : loc ≠ []) (hfree : ∀ node, fs.find? loc = some node → ∃ old, node = .file old)
    (here there : Location) (rest : List String) :
    (fs.meet ending here there rest).Puts loc new rest
      ((fs.put loc new).meet ending' here there rest) := by
  -- Where the old tree has nothing or a file, the place may be the one where something is put.
  have hnew (hloc : there = loc) (hrest : rest.isEmpty = true) : rest = [] ∧
      match new with
      | .directory => (fs.put loc new).meet ending' here there rest = .on loc
      | .file file => (fs.put loc new).meet ending' here there rest = .stop ⟨loc, some (.file file)⟩
      | .link _ => True := by
    refine ⟨List.isEmpty_iff.mp hrest, ?_⟩
    subst hloc
    unfold meet
    rw [find?_put fs hne, if_pos rfl]
    cases new with
    | directory => rfl
    | file file => simp only [hrest, if_true]
    | link target => trivial
  -- Directories and links are left alone, since neither of them stood at the place.
  have hsame {node : Node} (hnode : fs.find? there = some node) (hfile : ∀ old, node ≠ .file old) :
      (fs.put loc new).find? there = some node := by
    rw [find?_put fs hne, if_neg, hnode]
    rintro rfl
    obtain ⟨old, hold⟩ := hfree _ hnode
    exact hfile old hold
  rcases hthere : fs.find? there with _ | _ | old | target
  · rw [meet, hthere]
    simp only
    split
    · exact fun hloc => hnew hloc ‹_›
    · trivial
  · rw [meet, hthere, meet, hsame hthere (by simp)]
    rfl
  · rw [meet, hthere]
    simp only
    split
    · exact fun hloc => hnew hloc ‹_›
    · trivial
  · rw [meet, hthere, meet, hsame hthere (by simp)]
    simp only [hlink, decide_false, Bool.and_false, Bool.false_eq_true, if_false]
    split
    · rename_i hend
      intro hloc
      obtain ⟨old, hold⟩ := hfree (.link target) (by rw [← hthere, ← hloc])
      cases hold
    · rfl

theorem turn_put {ending' : Ending} (hcreation : ending' = .creation → ending = .creation)
    (hlink : ending' ≠ .link) {loc : Location} {new : Node} (hne : loc ≠ [])
    (hfree : ∀ node, fs.find? loc = some node → ∃ old, node = .file old) (here : Location)
    (name : String) (rest : List String) :
    (fs.turn ending here name rest).Puts loc new rest
      ((fs.put loc new).turn ending' here name rest) := by
  unfold turn
  by_cases hslash : ending = .creation ∧ rest = [""]
  · split_ifs <;> trivial
  have hslash' : ¬(ending' = .creation ∧ rest = [""]) :=
    fun h => hslash ⟨hcreation h.1, h.2⟩
  rw [if_neg hslash, if_neg hslash']
  split_ifs
  · rfl
  · rfl
  · trivial
  · exact meet_put hlink hne hfree here _ rest

/-- A place at which nothing but a file stands is found again with what is put there. -/
theorem lookupNames_put {follow follow' : Location → List String → Except Fault Found}
    {ending' : Ending} (hending : ending' = .creation → ending = .creation)
    (hlink' : ending' ≠ .link) {loc : Location} {new : Node} (hnew : ∀ target, new ≠ .link target)
    (hfree : ∀ node, fs.find? loc = some node → ∃ old, node = .file old)
    (hfollow : ∀ here names node, follow here names = .ok ⟨loc, node⟩ →
      follow' here names = .ok ⟨loc, some new⟩)
    {here : Location} {names : List String} {node : Option Node}
    (h : fs.lookupNames ending follow here names = .ok ⟨loc, node⟩) :
    (fs.put loc new).lookupNames ending' follow' here names = .ok ⟨loc, some new⟩ := by
  have hne : loc ≠ [] := by
    rintro rfl
    obtain ⟨old, hold⟩ := hfree .directory rfl
    cases hold
  have hfound : (fs.put loc new).find? loc = some new := by
    rw [find?_put fs hne, if_pos rfl]
  induction names generalizing here with
  | nil =>
    cases h
    rw [lookupNames, hfound]
  | cons name rest ih =>
    have hturn : (fs.turn ending here name rest).Puts loc new rest
        ((fs.put loc new).turn ending' here name rest) :=
      turn_put hending hlink' hne hfree here name rest
    rw [lookupNames] at h ⊢
    split at h
    · rename_i there heq
      rw [heq] at hturn
      rw [show (fs.put loc new).turn ending' here name rest = .on there from hturn]
      exact ih h
    · rename_i found heq
      rw [heq] at hturn
      cases h
      obtain ⟨rfl, hturn⟩ := hturn rfl
      cases new with
      | directory =>
        simp only at hturn
        rw [hturn]
        simp only [lookupNames, hfound]
      | file file =>
        simp only at hturn
        rw [hturn]
      | link target => exact absurd rfl (hnew target)
    · cases h
    · rename_i there names heq
      rw [heq] at hturn
      rw [show (fs.put loc new).turn ending' here name rest = .link there names from hturn]
      exact hfollow _ _ _ h

theorem lookupWithin_put {ending' : Ending} (hending : ending' = .creation → ending = .creation)
    (hlink' : ending' ≠ .link) {loc : Location} {new : Node} (hnew : ∀ target, new ≠ .link target)
    (hfree : ∀ node, fs.find? loc = some node → ∃ old, node = .file old) {links : Nat}
    {here : Location} {names : List String} {node : Option Node}
    (h : fs.lookupWithin ending links here names = .ok ⟨loc, node⟩) :
    (fs.put loc new).lookupWithin ending' links here names = .ok ⟨loc, some new⟩ := by
  induction links generalizing here names node with
  | zero =>
    exact lookupNames_put hending hlink' hnew hfree (fun _ _ _ h => by cases h) h
  | succ links ih => exact lookupNames_put hending hlink' hnew hfree (fun _ _ _ h => ih h) h

/-- What is put somewhere is found under the path under which the place was found. -/
theorem lookup_put [Environment] {ending' : Ending}
    (hending : ending' = .creation → ending = .creation) (hlink' : ending' ≠ .link) {loc : Location}
    {new : Node} (hnew : ∀ target, new ≠ .link target) (hfree : ∀ node, fs.find? loc = some node →
      ∃ old, node = .file old) {text : String}
    {node : Option Node} (h : fs.lookup ending text = .ok ⟨loc, node⟩) :
    (fs.put loc new).lookup ending' text = .ok ⟨loc, some new⟩ := by
  obtain ⟨hspelling, hlong, hwithin⟩ := lookup_eq_ok h
  rw [lookup, hspelling, if_neg (by simp [hlong])]
  exact lookupWithin_put hending hlink' hnew hfree hwithin

end Autogen.FileSystem
