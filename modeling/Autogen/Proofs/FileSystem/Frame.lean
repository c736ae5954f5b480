import Autogen.Proofs.FileSystem.Write

/-!
# What writing leaves alone

Before a file is written the missing directories above it are made. Where that or what follows
fails, they are all that is new: a file is made writable only if it can be written over. Where
nothing fails, one file has a new content.

## Main definitions

* `Furnished` — a tree to which directories on the way of a path were added, and nothing else.
* `ModeWritten` — the mode of a file that was written over.
* `Wrote` — a tree in which a path leads to a file that was written, the rest of which is as it was.

## Main statements

* `furnished_makeDirectories` — making directories adds nothing else.
* `FurnishedAt.find?_eq` — what stood somewhere stands there still.
* `lookup_creation_of_file` — a file that is found can be written over.
* `wrote_of_write` — a write that succeeds.
* `Wrote.mode_eq_or` — the mode of a file that nobody ran as someone else.
* `furnished_of_write` — a write that fails.
-/

namespace Autogen.FileSystem

variable {fs fs' fs'' : FileSystem} {p dir : Path} {content : ByteArray}

/-! ## Lookups of files -/

/-- A lookup stops at the last name. -/
theorem turn_eq_stop {ending : Ending} {here : Location} {name : String}
    {rest : List String} {found : Found} (h : fs.turn ending here name rest = .stop found) :
    rest = [] := by
  unfold turn meet at h
  cases rest with
  | nil => rfl
  | cons next rest =>
    simp only [List.isEmpty_cons, Bool.false_and, Bool.false_eq_true, if_false] at h
    split_ifs at h
    split at h <;> cases h

/-- The names behind a link are gone through after those of its target. -/
theorem turn_eq_link {ending : Ending} {here there : Location} {name : String}
    {rest names : List String} (h : fs.turn ending here name rest = .link there names) :
    ∃ target, names = stepNames target ++ rest := by
  unfold turn at h
  split_ifs at h
  unfold meet at h
  split at h
  · split at h <;> cases h
  · cases h
  · split at h <;> cases h
  · rename_i target hfound
    split at h
    · cases h
    · cases h
      exact ⟨target, rfl⟩

/-- Names with a slash behind the last one do not lead to a file. -/
theorem lookupNames_slash (htree : fs.IsTree) {follow : Location → List String → Except Fault Found}
    (hfollow : ∀ here names loc file, fs.find? here = some .directory → names.getLast? = some "" →
      follow here names ≠ .ok ⟨loc, some (.file file)⟩)
    {here : Location} {names : List String} (hhere : fs.find? here = some .directory)
    (hslash : names.getLast? = some "") (loc : Location) (file : File) :
    fs.lookupNames .target follow here names ≠ .ok ⟨loc, some (.file file)⟩ := by
  induction names generalizing here with
  | nil => cases hslash
  | cons name rest ih =>
    intro h
    have harrives : (fs.turn .target here name rest).Arrives fs :=
      turn_arrives (fun _ => hhere) name rest
    rw [lookupNames] at h
    by_cases hrest : rest = []
    · -- The last name is empty, so the lookup ends in the directory.
      subst hrest
      obtain rfl : name = "" := by simpa using hslash
      have hturn : fs.turn .target here "" [] = .on here := by
        rw [turn, if_pos (.inl rfl)]
      rw [hturn] at h
      simp [lookupNames, hhere] at h
    · have hlast : rest.getLast? = some "" := by
        rwa [List.getLast?_cons_of_ne_nil hrest] at hslash
      split at h
      · rename_i there hturn
        rw [hturn] at harrives
        exact ih (harrives htree) hlast h
      · rename_i found hturn
        exact hrest (turn_eq_stop hturn)
      · cases h
      · rename_i there names hturn
        rw [hturn] at harrives
        obtain ⟨target, rfl⟩ := turn_eq_link hturn
        refine hfollow there _ loc file (harrives htree) ?_ h
        rw [List.getLast?_append_of_ne_nil _ hrest, hlast]

/-- A file that is found is found by whoever writes it. -/
theorem lookupNames_creation_of_file (htree : fs.IsTree)
    {follow follow' : Location → List String → Except Fault Found}
    (hslash : ∀ here names loc file, fs.find? here = some .directory → names.getLast? = some "" →
      follow here names ≠ .ok ⟨loc, some (.file file)⟩)
    (hfollow : ∀ here names loc file, fs.find? here = some .directory →
      follow here names = .ok ⟨loc, some (.file file)⟩ →
      follow' here names = .ok ⟨loc, some (.file file)⟩)
    {here loc : Location} {names : List String} {file : File}
    (hhere : fs.find? here = some .directory)
    (h : fs.lookupNames .target follow here names = .ok ⟨loc, some (.file file)⟩) :
    fs.lookupNames .creation follow' here names = .ok ⟨loc, some (.file file)⟩ := by
  induction names generalizing here with
  | nil => exact h
  | cons name rest ih =>
    have harrives : (fs.turn .target here name rest).Arrives fs :=
      turn_arrives (fun _ => hhere) name rest
    -- The ways of looking differ only before a slash at the end, and there no file is found.
    have hturn : fs.turn .creation here name rest = fs.turn .target here name rest := by
      apply turn_creation_of_ne
      rintro rfl
      exact lookupNames_slash htree hslash hhere rfl loc file h
    rw [lookupNames] at h ⊢
    rw [hturn]
    split at h
    · rename_i there heq
      rw [heq] at harrives
      exact ih (harrives htree) h
    · exact h
    · cases h
    · rename_i there names heq
      rw [heq] at harrives
      exact hfollow _ _ _ _ (harrives htree) h

theorem lookupWithin_slash (htree : fs.IsTree) (links : Nat) (here : Location) (names : List String)
    (loc : Location) (file : File) (hhere : fs.find? here = some .directory)
    (hslash : names.getLast? = some "") :
    fs.lookupWithin .target links here names ≠ .ok ⟨loc, some (.file file)⟩ := by
  induction links generalizing here names loc file with
  | zero => exact lookupNames_slash htree (fun _ _ _ _ _ _ h => by cases h) hhere hslash loc file
  | succ links ih => exact lookupNames_slash htree ih hhere hslash loc file

/-! ## Modes -/

/-- The mode of a file that was written over: the owner may write it from now on, and as its content
is a new one, it is not run as someone else. The bit for the group stays if it means something else,
because the group cannot execute the file. -/
def ModeWritten (old new : Nat) : Prop :=
  ∀ i, new.testBit i = ((old.testBit i || ownerWrite.testBit i) &&
    !runsAsOwner.testBit i && !(runsAsGroup.testBit i && hasBit old groupExecute))

/-- The bits of a file that was written over. -/
theorem modeWritten_iff {old new : Nat} : ModeWritten old new ↔ ∀ i, new.testBit i =
    ((old.testBit i || decide (7 = i)) && !decide (11 = i) &&
      !(decide (10 = i) && old.testBit 3)) := by
  unfold ModeWritten
  simp only [ownerWrite_eq, runsAsOwner_eq, runsAsGroup_eq, groupExecute_eq,
    Nat.testBit_two_pow, hasBit_two_pow]

theorem modeWritten_overwrite (old : File) (content : ByteArray) :
    ModeWritten old.mode (old.writable.overwrite content).mode := by
  rw [modeWritten_iff]
  intro i
  rw [File.overwrite, File.writable, testBit_changedMode, ownerWrite_eq,
    Nat.testBit_or, Nat.testBit_or, Nat.testBit_two_pow, Nat.testBit_two_pow]
  grind

/-- A file that is not run as someone else gets the bit for its owner and no other. -/
theorem ModeWritten.eq_or {old new : Nat} (h : ModeWritten old new)
    (howner : hasBit old runsAsOwner = false) (hgroup : hasBit old runsAsGroup = false) :
    new = old ||| ownerWrite := by
  rw [runsAsOwner_eq, hasBit_two_pow] at howner
  rw [runsAsGroup_eq, hasBit_two_pow] at hgroup
  apply Nat.eq_of_testBit_eq
  intro i
  rw [modeWritten_iff.mp h i, Nat.testBit_or, ownerWrite_eq, Nat.testBit_two_pow]
  grind

variable [Environment]

/-! ## Directories that are made -/

/-- What stands at a location is what stood there, or a directory where nothing stood. A path leads
to the directory that is `dir` or one of the directories above it. -/
inductive FurnishedAt (fs : FileSystem) (dir : Path) (fs' : FileSystem) (loc : Location) :
    Prop where
  | kept (h : fs'.find? loc = fs.find? loc)
  | made (above : Path) (free : fs.find? loc = none) (isUnder : above.isUnder dir = true)
    (found : fs'.lookup .target above.text = .ok ⟨loc, some .directory⟩)

/-- A tree to which nothing was added but directories on the way of a path. -/
def Furnished (fs : FileSystem) (dir : Path) (fs' : FileSystem) : Prop :=
  ∀ loc, fs.FurnishedAt dir fs' loc

/-- What stood somewhere stands there still. -/
theorem FurnishedAt.find?_eq {loc : Location} {node : Node} (h : fs.FurnishedAt dir fs' loc)
    (hnode : fs.find? loc = some node) : fs'.find? loc = some node := by
  cases h with
  | kept hsame => rw [hsame, hnode]
  | made above hfree =>
    rw [hfree] at hnode
    cases hnode

theorem FurnishedAt.free {loc : Location} (h : fs.FurnishedAt dir fs' loc)
    (hnone : fs'.find? loc = none) :
    fs.find? loc = none := by
  cases h with
  | kept hsame => rw [← hsame, hnone]
  | made above hfree => exact hfree

/-- Growth elsewhere makes no difference to a location. -/
theorem FurnishedAt.grows {loc : Location} (h : fs.FurnishedAt dir fs' loc)
    (hgrows : fs'.Grows fs'') (hsame : fs''.find? loc = fs'.find? loc) :
    fs.FurnishedAt dir fs'' loc := by
  cases h with
  | kept hkept => exact .kept (hsame.trans hkept)
  | made above hfree habove hfound =>
    have hcarries : Carries (fs'.lookup .target above.text) (fs''.lookup .target above.text) :=
      lookup_grows hgrows above.text
    rw [hfound] at hcarries
    exact .made above hfree habove hcarries

theorem Furnished.refl (fs : FileSystem) (dir : Path) : fs.Furnished dir fs :=
  fun _ => .kept rfl

/-- One more directory is made. -/
theorem Furnished.makeDirectory (htree : fs'.IsTree) (h : fs.Furnished dir fs')
    (hp : fs'.makeDirectory p = .ok fs'') (hdir : p.isUnder dir = true) :
    fs.Furnished dir fs'' := by
  intro loc
  have hgrows := makeDirectory_grows htree hp
  obtain ⟨there, hlookup, rfl, hfound⟩ := makeDirectory_eq_ok hp
  have hnone : none = fs'.find? there := (lookup_arrives hlookup).node
  by_cases hloc : loc = there
  · subst hloc
    exact .made p ((h loc).free hnone.symm) hdir hfound
  · refine (h loc).grows hgrows ?_
    have hne : there ≠ [] := by
      rintro rfl
      cases hnone
    rw [find?_put fs' hne, if_neg hloc]

/-- Making the directories of a path adds nothing else. -/
theorem furnished_makeDirectories (htree : fs.IsTree) (dir : Path) :
    fs.Furnished dir (fs.makeDirectories dir).1 := by
  have hup : fs.Grows (fs.makeDirectories dir).1 ∧ fs.Furnished dir (fs.makeDirectories dir).1 := by
    refine makeDirectoriesUp_preserves (P := fun made => fs.Grows made ∧ fs.Furnished dir made) ?_
      ⟨.refl fs, .refl fs dir⟩
    rintro p made made' hp ⟨hgrows, hfurnished⟩ hmade
    have htree' := hgrows.tree htree
    rw [List.reverse_reverse] at hp
    exact ⟨hgrows.trans (makeDirectory_grows htree' hmade),
      hfurnished.makeDirectory htree' hmade hp⟩
  exact hup.2

/-! ## Files that can be written over -/

/-- A file that is found can be written over. -/
theorem lookup_creation_of_file (htree : fs.IsTree) {text : String} {loc : Location} {file : File}
    (h : fs.lookup .target text = .ok ⟨loc, some (.file file)⟩) :
    fs.lookup .creation text = .ok ⟨loc, some (.file file)⟩ := by
  have hwithin (links : Nat) (here : Location) (names : List String) (loc : Location) (file : File)
      (hhere : fs.find? here = some .directory)
      (h : fs.lookupWithin .target links here names = .ok ⟨loc, some (.file file)⟩) :
      fs.lookupWithin .creation links here names = .ok ⟨loc, some (.file file)⟩ := by
    induction links generalizing here names loc file with
    | zero =>
      exact lookupNames_creation_of_file htree (fun _ _ _ _ _ _ h => by cases h)
        (fun _ _ _ _ _ h => by cases h)
        hhere h
    | succ links ih =>
      exact lookupNames_creation_of_file htree (lookupWithin_slash htree links) ih hhere h
  obtain ⟨hspelling, hlong, h⟩ := lookup_eq_ok h
  rw [lookup, hspelling, if_neg (by simp [hlong])]
  exact hwithin _ _ _ _ _ rfl h

/-! ## Writes that fail -/

/-- What was made writable is written over. -/
theorem replaceContent_of_makeWritable (htree : fs.IsTree) (h : fs.makeWritable p = .ok fs') :
    fs' = fs ∨ ∃ done, fs'.replaceContent p content = .ok done := by
  have htree' := (makeWritable_grows h).tree htree
  rcases makeWritable_eq_ok h with ⟨rfl, -⟩ | ⟨loc, old, -, rfl, hfound⟩
  · exact .inl rfl
  · have hcreation := lookup_creation_of_file htree' hfound
    exact .inr ⟨_, by unfold replaceContent; rw [hcreation]⟩

/-- A write that fails has made directories, if anything. What was there is as it was. -/
theorem furnished_of_write (htree : fs.IsTree) {fault : Fault}
    (h : fs.write p content = (fs', .error fault)) :
    fs.Furnished p.parent fs' := by
  have hfurnished := furnished_makeDirectories htree p.parent
  have htree' := (makeDirectories_grows htree p.parent).tree htree
  unfold write at h
  generalize fs.makeDirectories p.parent = out at h hfurnished htree'
  obtain ⟨made, other | ⟨⟩⟩ := out
  · cases h
    exact hfurnished
  · simp only at h hfurnished htree'
    split at h
    · cases h
      exact hfurnished
    · rename_i writable hwritable
      split at h
      · rename_i other hother
        cases h
        rcases replaceContent_of_makeWritable htree' hwritable with rfl | ⟨done, hdone⟩
        · exact hfurnished
        · rw [hother] at hdone
          cases hdone
      · cases h

/-- A write that fails leaves every file with its content and its mode. -/
theorem find?_of_write_eq_error (htree : fs.IsTree) {fault : Fault}
    (h : fs.write p content = (fs', .error fault)) {loc : Location} {file : File}
    (hfile : fs.find? loc = some (.file file)) :
    fs'.find? loc = some (.file file) :=
  (furnished_of_write htree h loc).find?_eq hfile

/-! ## Writes that succeed -/

/-- A tree in which a path leads to a file with a given content, at a location. Nothing else is new
but directories above the path. A file that was there has its old mode, as it is for a file that was
written over. -/
structure Wrote (fs : FileSystem) (p : Path) (content : ByteArray)
    (fs' : FileSystem) (loc : Location) (file : File) : Prop where
  found : fs'.lookup .target p.text = .ok ⟨loc, some (.file file)⟩
  content : file.content = content
  mode : (fs.find? loc = none ∧ file.mode = newFileMode) ∨
    ∃ old, fs.find? loc = some (.file old) ∧ ModeWritten old.mode file.mode
  others : ∀ other ≠ loc, fs.FurnishedAt p.parent fs' other

/-- A file that is not run as someone else gets the permission to be written by its owner, and no
other. -/
theorem Wrote.mode_eq_or {loc : Location} {file old : File} (h : fs.Wrote p content fs' loc file)
    (hold : fs.find? loc = some (.file old)) (howner : hasBit old.mode runsAsOwner = false)
    (hgroup : hasBit old.mode runsAsGroup = false) : file.mode = old.mode ||| ownerWrite := by
  rcases h.mode with ⟨hnone, -⟩ | ⟨before, hbefore, hwritten⟩
  · cases hnone.symm.trans hold
  · obtain rfl : before = old := by
      cases hbefore.symm.trans hold
      rfl
    exact hwritten.eq_or howner hgroup

/-- Directories are not made in place of files. -/
theorem FurnishedAt.file {loc : Location} {file : File} (h : fs.FurnishedAt dir fs' loc)
    (hfile : fs'.find? loc = some (.file file)) : fs.find? loc = some (.file file) := by
  cases h with
  | kept hsame => rw [← hsame, hfile]
  | made above hfree habove hfound =>
    have hdirectory := (lookup_arrives hfound).node
    cases hdirectory.trans hfile

/-- A write that succeeds. -/
theorem wrote_of_write (htree : fs.IsTree) (h : fs.write p content = (fs', .ok ())) :
    ∃ loc file, fs.Wrote p content fs' loc file := by
  obtain ⟨made, writable, hmade, hwritable, hreplace⟩ := write_eq_ok h
  have hfurnished := furnished_makeDirectories htree p.parent
  have htree' := (makeDirectories_grows htree p.parent).tree htree
  rw [hmade] at hfurnished htree'
  have hwriting := makeWritable_grows hwritable
  have hgrows := hwriting.trans (replaceContent_grows (hwriting.tree htree') hreplace)
  rcases replaceContent_eq_ok hreplace with ⟨loc, file, hlookup, rfl⟩ | ⟨loc, hlookup, rfl⟩
  · obtain ⟨old, hold, rfl, rfl⟩ := makeWritable_of_file hwritable hlookup
    have hne : loc ≠ [] := by
      rintro rfl
      cases hold
    refine ⟨loc, old.writable.overwrite content, ?_, rfl,
      .inr ⟨old, (hfurnished loc).file hold, ?_⟩, ?_⟩
    · exact lookup_put_file (by decide) hlookup fun _ hother => ⟨_, (Option.some.inj hother).symm⟩
    · exact modeWritten_overwrite old content
    · intro other hother
      refine (hfurnished other).grows hgrows ?_
      rw [find?_put _ hne, if_neg hother, find?_put _ hne, if_neg hother]
  · have hnone := (lookup_arrives hlookup).node
    have hne : loc ≠ [] := by
      rintro rfl
      cases hnone
    -- Where no file is found in the end, none was made writable.
    obtain rfl : writable = made := by
      rcases makeWritable_eq_ok hwritable with ⟨hsame, -⟩ | ⟨there, old, -, -, hfound⟩
      · exact hsame
      · cases hfound.symm.trans (lookup_creation hlookup)
    refine ⟨loc, ⟨content, newFileMode⟩, ?_, rfl, .inl ⟨(hfurnished loc).free hnone.symm, rfl⟩, ?_⟩
    · exact lookup_put_file (by decide) hlookup nofun
    · intro other hother
      refine (hfurnished other).grows hgrows ?_
      rw [find?_put _ hne, if_neg hother]

end Autogen.FileSystem
