import Autogen.Descriptor.File
import Autogen.Proofs.FileSystem.Growth
import Autogen.Proofs.Outcome
import Mathlib.Data.Nat.Bitwise

/-!
# What writing does to a tree of files

Writing makes a tree grow. What was written is found under its path, and writing it once more
changes nothing.

## Main definitions

* `HasFile` — a path under which a directory holds a file.

## Main statements

* `makeDirectoriesUp_preserves` — what one directory that is made preserves, all of a path preserve.
* `write_grows` — writing makes a tree grow, also when it fails.
* `written_of_write` — what was written is found.
* `write_write` — writing the same once more changes nothing.
* `HasFile.write` — a file can be written over.
-/

namespace Autogen.FileSystem

variable {fs fs' : FileSystem} {p : Path} {content : ByteArray}

/-! ## Permissions -/

theorem ownerRead_eq : ownerRead = 2 ^ 8 := rfl

theorem ownerWrite_eq : ownerWrite = 2 ^ 7 := rfl

theorem groupExecute_eq : groupExecute = 2 ^ 3 := rfl

theorem runsAsOwner_eq : runsAsOwner = 2 ^ 11 := rfl

theorem runsAsGroup_eq : runsAsGroup = 2 ^ 10 := rfl

theorem hasBit_two_pow (mode k : Nat) : hasBit mode (2 ^ k) = mode.testBit k := by
  rw [hasBit, Nat.and_two_pow]
  cases mode.testBit k <;> simp

theorem testBit_dropBit (mode k i : Nat) :
    (dropBit mode (2 ^ k)).testBit i = (mode.testBit i && decide (k ≠ i)) := by
  rw [dropBit, Nat.testBit_xor, Nat.testBit_and, Nat.testBit_two_pow]
  by_cases h : k = i <;> simp [h]

/-- The change of a file takes away the permissions to run as someone else and nothing more. -/
theorem testBit_changedMode (mode i : Nat) :
    (changedMode mode).testBit i =
      (mode.testBit i && (decide (i ≠ 11) && !(decide (i = 10) && mode.testBit 3))) := by
  have hsame : hasBit (dropBit mode (2 ^ 11)) (2 ^ 3) = mode.testBit 3 := by
    rw [hasBit_two_pow, testBit_dropBit]
    exact Bool.and_true _
  unfold changedMode
  rw [runsAsOwner_eq, runsAsGroup_eq, groupExecute_eq]
  lift_lets
  intro dropped
  rw [hsame]
  split
  · rename_i h3
    rw [testBit_dropBit, testBit_dropBit, h3]
    cases mode.testBit i <;> simp [eq_comm]
  · rename_i h3
    rw [testBit_dropBit, Bool.eq_false_iff.mpr h3]
    cases mode.testBit i <;> simp [eq_comm]

/-- A second change takes away nothing more. -/
theorem changedMode_changedMode (mode : Nat) :
    changedMode (changedMode mode) = changedMode mode := by
  apply Nat.eq_of_testBit_eq
  intro i
  rw [testBit_changedMode, testBit_changedMode, testBit_changedMode]
  cases mode.testBit i <;> cases mode.testBit 3 <;> simp

theorem changedMode_or_ownerWrite (mode : Nat) :
    changedMode (mode ||| ownerWrite) ||| ownerWrite = changedMode (mode ||| ownerWrite) := by
  apply Nat.eq_of_testBit_eq
  intro i
  rw [ownerWrite_eq, Nat.testBit_or, testBit_changedMode, Nat.testBit_or, Nat.testBit_two_pow]
  by_cases hi : 7 = i
  · subst hi
    simp
  · simp [hi]

/-- A file with the owner's write permission. -/
def File.writable (file : File) : File :=
  { file with mode := file.mode ||| ownerWrite }

/-- A file that writing leaves as it is but for its content. -/
structure File.Settled (file : File) : Prop where
  writable : file.writable = file
  mode : changedMode file.mode = file.mode

theorem settled_overwrite (file : File) (content : ByteArray) :
    (file.writable.overwrite content).Settled where
  writable := congrArg (File.mk content) (changedMode_or_ownerWrite file.mode)
  mode := changedMode_changedMode _

theorem settled_newFile (content : ByteArray) : (File.mk content newFileMode).Settled where
  writable := congrArg (File.mk content) (show newFileMode ||| ownerWrite = newFileMode by decide)
  mode := show changedMode newFileMode = newFileMode by decide

theorem hasBit_ownerRead_overwrite (file : File) (content : ByteArray) :
    hasBit (file.writable.overwrite content).mode ownerRead = hasBit file.mode ownerRead := by
  rw [ownerRead_eq, hasBit_two_pow, hasBit_two_pow, File.overwrite, File.writable,
    testBit_changedMode, Nat.testBit_or, ownerWrite_eq, Nat.testBit_two_pow]
  simp

/-! ## Lookups for one purpose and another -/

theorem put_self {loc : Location} {node : Node} (hne : loc ≠ []) (h : fs.find? loc = some node) :
    fs.put loc node = fs := by
  rw [find?, if_neg hne] at h
  rw [put, OrderedMap.insert_of_get? h]

/-- At a link at the end it makes a difference whether the link or its target is meant. -/
theorem turn_link (fs : FileSystem) (here : Location) (name : String) (rest : List String) :
    fs.turn .link here name rest = fs.turn .target here name rest ∨
      ∃ loc node, fs.turn .link here name rest = .stop ⟨loc, some node⟩ := by
  unfold turn
  simp only [reduceCtorEq, false_and, if_false]
  split_ifs
  · exact .inl rfl
  · exact .inl rfl
  · exact .inl rfl
  · unfold meet
    rcases hthere : fs.find? (here ++ [settled name]) with _ | _ | file | target
    · exact .inl rfl
    · exact .inl rfl
    · exact .inl rfl
    · by_cases hrest : rest.isEmpty
      · refine .inr ⟨here ++ [settled name], .link target, ?_⟩
        simp only [hrest, decide_true, Bool.and_self, if_true]
      · refine .inl ?_
        simp only [hrest, Bool.false_and, Bool.false_eq_true, if_false]

/-- What is meant by the last name makes no difference to whether something is there. -/
theorem lookupNames_link {follow follow' : Location → List String → Except Fault Found}
    (hfollow : ∀ here names loc node, follow here names = .ok ⟨loc, some node⟩ →
      ∃ loc node, follow' here names = .ok ⟨loc, some node⟩)
    {here : Location} {names : List String} {loc : Location} {node : Node}
    (h : fs.lookupNames .target follow here names = .ok ⟨loc, some node⟩) :
    ∃ loc node, fs.lookupNames .link follow' here names = .ok ⟨loc, some node⟩ := by
  induction names generalizing here with
  | nil =>
    cases hhere : fs.find? here with
    | none => simp [lookupNames, hhere] at h
    | some node => exact ⟨here, node, by rw [lookupNames, hhere]⟩
  | cons name rest ih =>
    rw [lookupNames] at h ⊢
    rcases turn_link fs here name rest with hturn | ⟨loc, node, hturn⟩
    · rw [hturn]
      split at h
      · exact ih h
      · cases h
        exact ⟨loc, node, rfl⟩
      · cases h
      · exact hfollow _ _ _ _ h
    · rw [hturn]
      exact ⟨loc, node, rfl⟩

theorem turn_creation_of_ne (fs : FileSystem) (here : Location) (name : String) {rest : List String}
    (h : rest ≠ [""]) : fs.turn .creation here name rest = fs.turn .target here name rest := by
  unfold turn
  simp only [h, and_false, if_false]
  rfl

/-- A file is not created where a directory is asked for; otherwise it is created where it would be
found. -/
theorem turn_creation (fs : FileSystem) (here : Location) (name : String) (rest : List String) :
    fs.turn .creation here name rest = fs.turn .target here name rest ∨
      fs.turn .creation here name rest = .fail .isADirectory := by
  by_cases hslash : rest = [""]
  · unfold turn
    simp only [true_and, reduceCtorEq, false_and, if_false]
    rw [if_pos hslash]
    split_ifs
    · exact .inl rfl
    · exact .inl rfl
    · exact .inr rfl
    · exact .inr rfl
  · exact .inl (turn_creation_of_ne fs here name hslash)

/-- A place at which a file can be created is also found when it is only looked for. -/
theorem lookupNames_creation {follow follow' : Location → List String → Except Fault Found}
    (hfollow : ∀ here names found, follow here names = .ok found → follow' here names = .ok found)
    {here : Location} {names : List String} {found : Found}
    (h : fs.lookupNames .creation follow here names = .ok found) :
    fs.lookupNames .target follow' here names = .ok found := by
  induction names generalizing here with
  | nil => exact h
  | cons name rest ih =>
    rw [lookupNames] at h ⊢
    rcases turn_creation fs here name rest with hturn | hturn
    · rw [← hturn]
      split at h
      · exact ih h
      · exact h
      · cases h
      · exact hfollow _ _ _ h
    · rw [hturn] at h
      cases h

/-! ## What the operations do -/

theorem isUnder_self (dir : Path) : dir.isUnder dir = true := by
  simp [Path.isUnder]

theorem isUnder_of_parts {above : Path} {anchor : Path.Anchor} {parts more : List String}
    (h : above.isUnder ⟨anchor, parts⟩ = true) : above.isUnder ⟨anchor, parts ++ more⟩ = true := by
  simp only [Path.isUnder, Bool.and_eq_true, List.isPrefixOf_iff_prefix] at h ⊢
  exact ⟨h.1, h.2.trans (List.prefix_append parts more)⟩

variable [Environment]

/-- A directory is made where nothing stands, and found there. -/
theorem makeDirectory_eq_ok (h : fs.makeDirectory p = .ok fs') :
    ∃ loc, fs.lookup .link p.text = .ok ⟨loc, none⟩ ∧ fs' = fs.put loc .directory ∧
      fs'.lookup .target p.text = .ok ⟨loc, some .directory⟩ := by
  unfold makeDirectory at h
  split at h
  · cases h
  · rename_i loc hlookup
    cases h
    refine ⟨loc, hlookup, rfl, ?_⟩
    refine lookup_put (by decide) (by decide) (fun _ h => by cases h) (fun node hnode => ?_) hlookup
    rw [← (lookup_arrives hlookup).node] at hnode
    cases hnode
  · cases h

/-- A file that is found is made writable, and found again. -/
theorem makeWritable_eq_ok (h : fs.makeWritable p = .ok fs') :
    (fs' = fs ∧ ∀ loc file, fs.lookup .target p.text ≠ .ok ⟨loc, some (.file file)⟩) ∨
      ∃ loc old, fs.lookup .target p.text = .ok ⟨loc, some (.file old)⟩ ∧
        fs' = fs.put loc (.file old.writable) ∧
        fs'.lookup .target p.text = .ok ⟨loc, some (.file old.writable)⟩ := by
  unfold makeWritable at h
  split at h
  · rename_i loc old hlookup
    cases h
    have hold := (lookup_arrives hlookup).node
    refine .inr ⟨loc, old, hlookup, rfl, ?_⟩
    exact lookup_put (by decide) (by decide) (fun _ h => by cases h)
      (fun node hnode => ⟨old, Option.some.inj (hnode.symm.trans hold.symm)⟩) hlookup
  · rename_i hother hlookup
    cases h
    exact .inl ⟨rfl, fun loc file hfile =>
      hother loc file (Except.ok.inj (hlookup.symm.trans hfile))⟩
  · rename_i fault hlookup
    split at h
    · cases h
      refine .inl ⟨rfl, fun loc file hfile => ?_⟩
      rw [hlookup] at hfile
      cases hfile
    · cases h

theorem replaceContent_eq_ok (h : fs.replaceContent p content = .ok fs') :
    (∃ loc file, fs.lookup .creation p.text = .ok ⟨loc, some (.file file)⟩ ∧
        fs' = fs.put loc (.file (file.overwrite content))) ∨
      ∃ loc, fs.lookup .creation p.text = .ok ⟨loc, none⟩ ∧
        fs' = fs.put loc (.file ⟨content, newFileMode⟩) := by
  unfold replaceContent at h
  split at h
  · cases h
  · rename_i loc file hlookup
    cases h
    exact .inl ⟨loc, file, hlookup, rfl⟩
  · rename_i loc hlookup
    cases h
    exact .inr ⟨loc, hlookup, rfl⟩
  · cases h

/-- A file that is put where a file can be written is found by whoever looks for it or writes it. -/
theorem lookup_put_file {ending : Ending} (hending : ending ≠ .link)
    {text : String} {loc : Location} {node : Option Node} {new : File}
    (h : fs.lookup .creation text = .ok ⟨loc, node⟩) (hnode : ∀ other, node = some other →
      ∃ old, other = .file old) :
    (fs.put loc (.file new)).lookup ending text = .ok ⟨loc, some (.file new)⟩ :=
  lookup_put (fun _ => rfl) hending (fun _ h => by cases h)
    (fun other hother => hnode other ((lookup_arrives h).node.trans hother)) h

theorem write_eq_ok (h : fs.write p content = (fs', .ok ())) :
    ∃ made writable, fs.makeDirectories p.parent = (made, .ok ()) ∧
      made.makeWritable p = .ok writable ∧ writable.replaceContent p content = .ok fs' := by
  unfold write at h
  split at h
  · cases h
  · rename_i made hmade
    split at h
    · cases h
    · rename_i writable hwritable
      split at h
      · cases h
      · rename_i done hdone
        cases h
        exact ⟨made, writable, hmade, hwritable, hdone⟩

/-- The directories of a path are made one after the other, down to the path. -/
theorem makeDirectoriesUp_preserves {P : FileSystem → Prop} {anchor : Path.Anchor}
    {names : List String} (hstep : ∀ (p : Path) (made made' : FileSystem),
      p.isUnder ⟨anchor, names.reverse⟩ = true → P made →
      made.makeDirectory p = .ok made' → P made') (h : P fs) :
      P (fs.makeDirectoriesUp anchor names).1 := by
  induction names with
  | nil =>
    unfold makeDirectoriesUp
    simp only
    split
    · rename_i made hmade
      exact hstep _ fs made (isUnder_self _) h hmade
    · exact h
    · exact h
  | cons last above ih =>
    unfold makeDirectoriesUp
    simp only
    split
    · rename_i made hmade
      exact hstep _ fs made (isUnder_self _) h hmade
    · have habove : P (fs.makeDirectoriesUp anchor above).1 := by
        refine ih fun p made made' hp => hstep p made made' ?_
        rw [List.reverse_cons]
        exact isUnder_of_parts hp
      -- The directory above was missing: it is made first, and then this one is tried again.
      generalize fs.makeDirectoriesUp anchor above = out at habove ⊢
      obtain ⟨made, fault | ⟨⟩⟩ := out
      · exact habove
      · simp only
        split
        · rename_i done hdone
          exact hstep _ made done (isUnder_self _) habove hdone
        · exact habove
        · exact habove
    · exact h

/-! ## Growth -/

theorem makeDirectory_grows (htree : fs.IsTree) (h : fs.makeDirectory p = .ok fs') :
    fs.Grows fs' := by
  obtain ⟨loc, hlookup, rfl, -⟩ := makeDirectory_eq_ok h
  have harrives := lookup_arrives hlookup
  exact grows_put_new harrives.node.symm (harrives.parent htree) (fun _ h => by cases h)

theorem makeDirectoriesUp_grows (htree : fs.IsTree) (anchor : Path.Anchor) (names : List String) :
    fs.Grows (fs.makeDirectoriesUp anchor names).1 :=
  makeDirectoriesUp_preserves
    (fun _ _ _ _ hgrows hmade => hgrows.trans (makeDirectory_grows (hgrows.tree htree) hmade))
      (.refl fs)

theorem makeWritable_grows (h : fs.makeWritable p = .ok fs') : fs.Grows fs' := by
  rcases makeWritable_eq_ok h with ⟨rfl, -⟩ | ⟨loc, old, hlookup, rfl, -⟩
  · exact .refl fs'
  · exact grows_put_file (lookup_arrives hlookup).node.symm

theorem replaceContent_grows (htree : fs.IsTree) (h : fs.replaceContent p content = .ok fs') :
    fs.Grows fs' := by
  rcases replaceContent_eq_ok h with ⟨loc, file, hlookup, rfl⟩ | ⟨loc, hlookup, rfl⟩
  · exact grows_put_file (lookup_arrives hlookup).node.symm
  · have harrives := lookup_arrives hlookup
    exact grows_put_new harrives.node.symm (harrives.parent htree) (fun _ h => by cases h)

theorem makeDirectories_grows (htree : fs.IsTree) (p : Path) : fs.Grows (fs.makeDirectories p).1 :=
  makeDirectoriesUp_grows htree p.anchor p.parts.reverse

/-- Before a file is written the directories above it are made. -/
theorem grows_write (htree : fs.IsTree) (p : Path) (content : ByteArray) :
    (fs.makeDirectories p.parent).1.Grows (fs.write p content).1 := by
  have htree' := (makeDirectories_grows htree p.parent).tree htree
  unfold write
  generalize fs.makeDirectories p.parent = out at htree' ⊢
  obtain ⟨made, fault | ⟨⟩⟩ := out
  · exact .refl made
  · simp only
    split
    · exact .refl made
    · rename_i writable hwritable
      have hgrown := makeWritable_grows hwritable
      split
      · exact hgrown
      · rename_i done hdone
        exact hgrown.trans (replaceContent_grows (hgrown.tree htree') hdone)

/-- Writing makes a tree grow, also when it fails. -/
theorem write_grows (htree : fs.IsTree) (p : Path) (content : ByteArray) :
    fs.Grows (fs.write p content).1 :=
  (makeDirectories_grows htree p.parent).trans (grows_write htree p content)

/-! ## What is found -/

theorem isDirectory_iff :
    fs.isDirectory p = .ok true ↔ ∃ loc, fs.lookup .target p.text = .ok ⟨loc, some .directory⟩ := by
  unfold isDirectory entry?
  rcases hlookup : fs.lookup .target p.text with fault | ⟨loc, node⟩
  · simp only
    cases fault.isAbsence <;> simp
  · simp

theorem lookup_link {text : String} {loc : Location} {node : Node}
    (h : fs.lookup .target text = .ok ⟨loc, some node⟩) :
    ∃ loc node, fs.lookup .link text = .ok ⟨loc, some node⟩ := by
  have hwithin (links : Nat) (here : Location) (names : List String) (loc : Location) (node : Node)
      (h : fs.lookupWithin .target links here names = .ok ⟨loc, some node⟩) :
      ∃ loc node, fs.lookupWithin .link links here names = .ok ⟨loc, some node⟩ := by
    induction links generalizing here names loc node with
    | zero => exact lookupNames_link (fun _ _ _ _ h => by cases h) h
    | succ links ih => exact lookupNames_link ih h
  obtain ⟨hspelling, hlong, h⟩ := lookup_eq_ok h
  rw [lookup, hspelling, if_neg (by simp [hlong])]
  exact hwithin _ _ _ _ _ h

/-- Where there is a directory, none is made. -/
theorem makeDirectories_of_isDirectory (h : fs.isDirectory p = .ok true) :
    fs.makeDirectories p = (fs, .ok ()) := by
  have hexists : fs.makeDirectory p = .error .alreadyExists := by
    obtain ⟨loc, hlookup⟩ := isDirectory_iff.mp h
    obtain ⟨loc', node, hlink⟩ := lookup_link hlookup
    rw [makeDirectory, hlink]
  have htolerate : fs.tolerate p .alreadyExists = .ok () := by
    simp [tolerate, h]
  have hpath : (⟨p.anchor, p.parts.reverse.reverse⟩ : Path) = p := by
    rw [List.reverse_reverse]
  unfold makeDirectories
  cases hparts : p.parts.reverse with
  | nil =>
    have hp : (⟨p.anchor, []⟩ : Path) = p := by
      rw [← hpath, hparts]
      rfl
    rw [makeDirectoriesUp, hp, hexists]
    simp only [htolerate]
  | cons last above =>
    have hp : (⟨p.anchor, (last :: above).reverse⟩ : Path) = p := by
      rw [← hparts, hpath]
    rw [makeDirectoriesUp, hp, hexists]
    simp only [htolerate]

theorem isDirectory_of_makeDirectory (h : fs.makeDirectory p = .ok fs') :
    fs'.isDirectory p = .ok true := by
  obtain ⟨loc, -, -, hfound⟩ := makeDirectory_eq_ok h
  exact isDirectory_iff.mpr ⟨loc, hfound⟩

theorem isDirectory_of_tolerate {fault : Fault} (h : fs.tolerate p fault = .ok ()) :
    fs.isDirectory p = .ok true := by
  unfold tolerate at h
  split at h
  · cases h
  · assumption
  · cases h
  · cases h

/-- What directories were made for is a directory. -/
theorem isDirectory_of_makeDirectories (h : fs.makeDirectories p = (fs', .ok ())) :
    fs'.isDirectory p = .ok true := by
  have hpath : (⟨p.anchor, p.parts.reverse.reverse⟩ : Path) = p := by
    rw [List.reverse_reverse]
  unfold makeDirectories at h
  cases hparts : p.parts.reverse with
  | nil =>
    have hp : (⟨p.anchor, []⟩ : Path) = p := by
      rw [← hpath, hparts]
      rfl
    rw [hparts, makeDirectoriesUp, hp] at h
    split at h
    · rename_i made hmade
      cases h
      exact isDirectory_of_makeDirectory hmade
    · cases h
    · obtain ⟨rfl, htolerate⟩ := Prod.mk.inj h
      exact isDirectory_of_tolerate htolerate
  | cons last above =>
    have hp : (⟨p.anchor, (last :: above).reverse⟩ : Path) = p := by
      rw [← hparts, hpath]
    rw [hparts, makeDirectoriesUp, hp] at h
    split at h
    · rename_i made hmade
      cases h
      exact isDirectory_of_makeDirectory hmade
    · split at h
      · cases h
      · split at h
        · rename_i done hdone
          cases h
          exact isDirectory_of_makeDirectory hdone
        · cases h
        · obtain ⟨rfl, htolerate⟩ := Prod.mk.inj h
          exact isDirectory_of_tolerate htolerate
    · obtain ⟨rfl, htolerate⟩ := Prod.mk.inj h
      exact isDirectory_of_tolerate htolerate

theorem isDirectory_grows (h : fs.Grows fs') (hdir : fs.isDirectory p = .ok true) :
    fs'.isDirectory p = .ok true := by
  obtain ⟨loc, hlookup⟩ := isDirectory_iff.mp hdir
  have hcarries : Carries (fs.lookup .target p.text) (fs'.lookup .target p.text) :=
    lookup_grows h p.text
  rw [hlookup] at hcarries
  exact isDirectory_iff.mpr ⟨loc, hcarries⟩

theorem lookup_creation {text : String} {found : Found}
    (h : fs.lookup .creation text = .ok found) : fs.lookup .target text = .ok found := by
  have hwithin (links : Nat) (here : Location) (names : List String) (found : Found)
      (h : fs.lookupWithin .creation links here names = .ok found) :
      fs.lookupWithin .target links here names = .ok found := by
    induction links generalizing here names found with
    | zero => exact lookupNames_creation (fun _ _ _ h => by cases h) h
    | succ links ih => exact lookupNames_creation ih h
  obtain ⟨hspelling, hlong, h⟩ := lookup_eq_ok h
  rw [lookup, hspelling, if_neg (by simp [hlong])]
  exact hwithin _ _ _ _ h

/-- What is written makes no difference to whether it can be written. -/
theorem write_result (fs : FileSystem) (p : Path) (content content' : ByteArray) :
    (fs.write p content).2 = (fs.write p content').2 := by
  unfold write
  split
  · rfl
  · split
    · rfl
    · unfold replaceContent
      rcases FileSystem.lookup _ .creation p.text with fault | ⟨loc, _ | _ | file | target⟩ <;> rfl

/-! ## What was written -/

/-- The file at which writing arrives is the one that was made writable. -/
theorem makeWritable_of_file {loc : Location} {file : File} {made : FileSystem}
    (h : fs.makeWritable p = .ok made)
    (hfile : made.lookup .creation p.text = .ok ⟨loc, some (.file file)⟩) :
    ∃ old, fs.find? loc = some (.file old) ∧ file = old.writable ∧
      made = fs.put loc (.file old.writable) := by
  have htarget := lookup_creation hfile
  rcases makeWritable_eq_ok h with ⟨rfl, hother⟩ | ⟨there, old, hlookup, rfl, hfound⟩
  · exact absurd htarget (hother loc file)
  · cases hfound.symm.trans htarget
    exact ⟨old, (lookup_arrives hlookup).node.symm, rfl, rfl⟩

/-- What writing leaves under a path: a file which is found by whoever looks for it or creates it.
It can be read unless a file stands there before that cannot be read. -/
structure Written (fs : FileSystem) (p : Path) (fs' : FileSystem) (loc : Location) (file : File) :
    Prop where
  found : fs'.lookup .target p.text = .ok ⟨loc, some (.file file)⟩
  created : fs'.lookup .creation p.text = .ok ⟨loc, some (.file file)⟩
  settled : file.Settled
  unreadable_iff : hasBit file.mode ownerRead = false ↔
    ∃ old, fs.find? loc = some (.file old) ∧ hasBit old.mode ownerRead = false

/-- Directories that are made neither are files nor take their places. -/
theorem find?_makeDirectory (h : fs.makeDirectory p = .ok fs') (loc : Location) (file : File) :
    fs'.find? loc = some (.file file) ↔ fs.find? loc = some (.file file) := by
  obtain ⟨there, hlookup, rfl, -⟩ := makeDirectory_eq_ok h
  have hnone := (lookup_arrives hlookup).node
  have hne : there ≠ [] := by
    rintro rfl
    cases hnone
  rw [find?_put fs hne]
  split
  · rename_i heq
    rw [heq, ← hnone]
    simp
  · rfl

theorem find?_makeDirectoriesUp (anchor : Path.Anchor) (names : List String) (loc : Location)
    (file : File) : (fs.makeDirectoriesUp anchor names).1.find? loc = some (.file file) ↔
      fs.find? loc = some (.file file) :=
  makeDirectoriesUp_preserves (P := fun made => made.find? loc = some (.file file) ↔
    fs.find? loc = some (.file file))
    (fun _ _ _ _ hfiles hmade => (find?_makeDirectory hmade loc file).trans hfiles) .rfl

/-- What was written is found. -/
theorem written_of_write (h : fs.write p content = (fs', .ok ())) :
    ∃ loc file, fs.Written p fs' loc file ∧ file.content = content := by
  obtain ⟨made, writable, hmade, hwritable, hreplace⟩ := write_eq_ok h
  have hfiles (loc : Location) (file : File) :
      made.find? loc = some (.file file) ↔ fs.find? loc = some (.file file) := by
    have hup : (fs.makeDirectories p.parent).1.find? loc = some (.file file) ↔
        fs.find? loc = some (.file file) := find?_makeDirectoriesUp _ _ loc file
    rwa [hmade] at hup
  -- Either a file was written over, which can be read if it could before, or a new one was made,
  -- which can be read.
  rcases replaceContent_eq_ok hreplace with ⟨loc, file, hlookup, rfl⟩ | ⟨loc, hlookup, rfl⟩
  · obtain ⟨old, hold, rfl, rfl⟩ := makeWritable_of_file hwritable hlookup
    have hfree : ∀ other, some (Node.file old.writable) = some other → ∃ old, other = .file old :=
      fun other hother => ⟨old.writable, (Option.some.inj hother).symm⟩
    refine ⟨loc, old.writable.overwrite content, ⟨?_, ?_, settled_overwrite old content, ?_⟩, rfl⟩
    · exact lookup_put_file (by decide) hlookup hfree
    · exact lookup_put_file (by decide) hlookup hfree
    · rw [hasBit_ownerRead_overwrite, (hfiles loc old).mp hold]
      simp
  · have hnone := (lookup_arrives hlookup).node
    have hfree : ∀ other, none = some other → ∃ old, other = Node.file old := nofun
    refine ⟨loc, ⟨content, newFileMode⟩, ⟨?_, ?_, settled_newFile content, ?_⟩, rfl⟩
    · exact lookup_put_file (by decide) hlookup hfree
    · exact lookup_put_file (by decide) hlookup hfree
    · refine iff_of_false (show ¬ hasBit newFileMode ownerRead = false by decide) ?_
      rintro ⟨old, hold, -⟩
      obtain ⟨file, hfile⟩ :=
        (makeWritable_grows hwritable).file loc old ((hfiles loc old).mpr hold)
      cases hfile.symm.trans hnone.symm

/-! ## Writing once more -/

/-- Writing the same once more changes nothing. -/
theorem write_write (htree : fs.IsTree) (h : fs.write p content = (fs', .ok ())) :
    fs'.write p content = (fs', .ok ()) := by
  obtain ⟨loc, file, ⟨hfound, hcreated, hsettled, -⟩, rfl⟩ := written_of_write h
  -- Each of the steps finds what it would do done: the directory, the mode, and the content.
  have hself : fs'.put loc (.file file) = fs' := by
    have hfile := (lookup_arrives hfound).node
    refine put_self ?_ hfile.symm
    rintro rfl
    cases hfile
  have hdir : fs'.isDirectory p.parent = .ok true := by
    obtain ⟨made, writable, hmade, hwritable, hreplace⟩ := write_eq_ok h
    have hgrown : fs.Grows made := by
      have := makeDirectoriesUp_grows htree p.parent.anchor p.parent.parts.reverse
      rwa [← makeDirectories, hmade] at this
    have hwritten : made.Grows writable := makeWritable_grows hwritable
    exact isDirectory_grows (hwritten.trans
      (replaceContent_grows ((hgrown.trans hwritten).tree htree) hreplace))
      (isDirectory_of_makeDirectories hmade)
  have hwritable : fs'.makeWritable p = .ok fs' := by
    unfold makeWritable
    rw [hfound]
    exact congrArg Except.ok ((congrArg (fs'.put loc <| .file ·) hsettled.writable).trans hself)
  have hreplace : fs'.replaceContent p file.content = .ok fs' := by
    have hsame : file.overwrite file.content = file :=
      congrArg (File.mk file.content) hsettled.mode
    unfold replaceContent
    rw [hcreated]
    simp only [hsame, hself]
  unfold write
  rw [makeDirectories_of_isDirectory hdir]
  simp only [hwritable, hreplace]

/-! ## Writing over a file -/

/-- A path that leads to a file, by way of its directory. -/
structure HasFile (fs : FileSystem) (p : Path) : Prop where
  parent : fs.isDirectory p.parent = .ok true
  file : ∃ loc file, fs.lookup .creation p.text = .ok ⟨loc, some (.file file)⟩

instance decidableIsFile (node : Option Node) : Decidable (∃ file, node = some (.file file)) :=
  match node with
  | some (.file file) => isTrue ⟨file, rfl⟩
  | some .directory | some (.link _) | none => isFalse (by simp)

instance decidableHasFile (fs : FileSystem) (p : Path) : Decidable (fs.HasFile p) :=
  decidable_of_iff (fs.isDirectory p.parent = .ok true ∧
      ∃ found, fs.lookup .creation p.text = .ok found ∧
        ∃ file, found.node = some (.file file)) <| by
    refine ⟨?_, fun h => ⟨h.parent, ?_⟩⟩
    · rintro ⟨hparent, ⟨loc, _⟩, hfound, file, rfl⟩
      exact ⟨hparent, loc, file, hfound⟩
    · obtain ⟨loc, file, hfile⟩ := h.file
      exact ⟨_, hfile, file, rfl⟩

theorem HasFile.grows (h : fs.HasFile p) (hgrows : fs.Grows fs') : fs'.HasFile p := by
  refine ⟨isDirectory_grows hgrows h.parent, ?_⟩
  obtain ⟨loc, old, hold⟩ := h.file
  have hcarries : Carries (fs.lookup .creation p.text) (fs'.lookup .creation p.text) :=
    lookup_grows hgrows p.text
  rw [hold] at hcarries
  obtain ⟨new, hnew⟩ := hcarries
  exact ⟨loc, new, hnew⟩

/-- A file can be written over, whatever its permissions are. -/
theorem HasFile.write (h : fs.HasFile p) (content : ByteArray) :
    (fs.write p content).2 = .ok () := by
  obtain ⟨loc, file, hfile⟩ := h.file
  have hwritable : fs.makeWritable p =
      .ok (fs.put loc (.file { file with mode := file.mode ||| ownerWrite })) := by
    unfold makeWritable
    rw [lookup_creation hfile]
  obtain ⟨there, new, hnew⟩ := (h.grows (makeWritable_grows hwritable)).file
  unfold FileSystem.write
  simp only [makeDirectories_of_isDirectory h.parent, hwritable, replaceContent, hnew]

end Autogen.FileSystem
