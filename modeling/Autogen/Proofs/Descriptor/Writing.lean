import Autogen.Proofs.Descriptor.File
import Autogen.Proofs.FileSystem.Frame

/-!
# What writing a descriptor changes

A descriptor that was written stands in its file. Apart from this file nothing has changed but that
directories above it were made. If it could not be written, all files are as they were. A text
without an encoding is another matter: its file is emptied before that shows.

## Main statements

* `write_frame` — what writing changes, and what it leaves alone.
* `write_sealedTree` — the bit with which a program runs as its owner does not stay.
-/

namespace Autogen.Descriptor

open FileSystem

section

variable {fs fs' : FileSystem} {p : Path} {content : String}

variable [Environment]

/-- What the system refused is the write of some bytes at this path. -/
theorem write_eq_unwritable {path : Path} {fault : Fault}
    (h : write fs p content = (fs', .error (.unwritable path fault))) :
    path = p ∧ ∃ bytes, fs.write p bytes = (fs', .error fault) := by
  unfold write at h
  simp only at h
  split at h
  · obtain ⟨-, hresult⟩ := Prod.mk.inj h
    split at hresult <;> cases hresult
  · cases (Prod.mk.inj h).2
  · rename_i hwrite
    cases h
    exact ⟨rfl, _, hwrite⟩

/-- Writing a descriptor puts the bytes of its text into the file that its path leads to, which
keeps its permissions up to those that every change of a file takes away, and may be written by its
owner. Otherwise directories above the file are made and nothing changes. If the descriptor cannot
be written, no file changes; about the directories nothing is said then, since one that stands at
the path gets a permission that is not kept here. -/
theorem write_frame (htree : fs.IsTree) (p : Path) (content : String) :
    (∀ done, write fs p content = (done, .ok ()) →
      Text.isEncodable content = true ∧ ∃ loc file, fs.Wrote p (Text.encode content) done loc file ∧
        ∀ old, fs.find? loc = some (.file old) → hasBit old.mode runsAsOwner = false →
          hasBit old.mode runsAsGroup = false → file.mode = old.mode ||| ownerWrite) ∧
    (∀ left path fault, write fs p content = (left, .error (.unwritable path fault)) →
      path = p ∧ ∀ loc file, fs.find? loc = some (.file file) →
      left.find? loc = some (.file file)) := by
  refine ⟨fun done h => ?_, fun left path fault h => ?_⟩
  · obtain ⟨hencodable, hwrite⟩ := write_eq_ok h
    obtain ⟨loc, file, hwrote⟩ := wrote_of_write htree hwrite
    exact ⟨hencodable, loc, file, hwrote, fun _ => hwrote.mode_eq_or⟩
  · obtain ⟨hpath, bytes, hwrite⟩ := write_eq_unwritable h
    exact ⟨hpath, fun _ _ => find?_of_write_eq_error htree hwrite⟩

end

attribute [local instance] Environment.plain

/-- A tree with a program that runs as its owner, and another file. Neither may be written. -/
def sealedTree : FileSystem :=
  let sealedProgram := (FileSystem.empty.put ["w"] .directory).put ["w", "a"]
    (.file ⟨Text.encode "old", 0o4444⟩)
  sealedProgram.put ["w", "r"] (.file ⟨Text.encode "kept", 0o444⟩)

/-- A descriptor is written into new directories and over either file; none is written below the
program. -/
theorem write_frame_sealedTree :
    (∃ done loc file, write sealedTree ⟨.root, ["w", "b", "c", "d"]⟩ "new" = (done, .ok ()) ∧
      sealedTree.Wrote ⟨.root, ["w", "b", "c", "d"]⟩ (Text.encode "new") done loc file) ∧
    (∃ done loc file, write sealedTree ⟨.root, ["w", "a"]⟩ "1" = (done, .ok ()) ∧
      sealedTree.Wrote ⟨.root, ["w", "a"]⟩ (Text.encode "1") done loc file) ∧
    (∃ done file, write sealedTree ⟨.root, ["w", "r"]⟩ "2" = (done, .ok ()) ∧
      sealedTree.Wrote ⟨.root, ["w", "r"]⟩ (Text.encode "2") done ["w", "r"] file ∧
      file.mode = 0o644) ∧
    ∃ left, write sealedTree ⟨.root, ["w", "a", "b"]⟩ "1" =
        (left, .error (.unwritable ⟨.root, ["w", "a", "b"]⟩ .alreadyExists)) ∧
      left.find? ["w", "r"] = some (.file ⟨Text.encode "kept", 0o444⟩) := by
  have htree : sealedTree.IsTree := isTree_of_entries (by decide)
  have hnew : (write sealedTree ⟨.root, ["w", "b", "c", "d"]⟩ "new").2 = .ok () := by decide +kernel
  have hover : (write sealedTree ⟨.root, ["w", "a"]⟩ "1").2 = .ok () := by decide +kernel
  have hfile : (write sealedTree ⟨.root, ["w", "r"]⟩ "2").2 = .ok () := by decide +kernel
  have hbelow : (write sealedTree ⟨.root, ["w", "a", "b"]⟩ "1").2 =
      .error (.unwritable ⟨.root, ["w", "a", "b"]⟩ .alreadyExists) := by decide +kernel
  obtain ⟨-, loc, file, hwrote, -⟩ :=
    (write_frame htree ⟨.root, ["w", "b", "c", "d"]⟩ "new").1 _ (Prod.ext rfl hnew)
  obtain ⟨-, loc', file', hwrote', -⟩ := (write_frame htree ⟨.root, ["w", "a"]⟩ "1").1
    _ (Prod.ext rfl hover)
  obtain ⟨-, there, other, hother, hmode⟩ :=
    (write_frame htree ⟨.root, ["w", "r"]⟩ "2").1 _ (Prod.ext rfl hfile)
  -- The path has no links, so the location is the one that its names give.
  have hthere : there = ["w", "r"] := by
    have hfound : (write sealedTree ⟨.root, ["w", "r"]⟩ "2").1.lookup .target "/w/r" =
        .ok ⟨["w", "r"], some (.file ⟨Text.encode "2", 0o644⟩)⟩ := by decide +kernel
    cases hother.found.symm.trans hfound
    rfl
  subst hthere
  obtain ⟨-, hkept⟩ := (write_frame htree ⟨.root, ["w", "a", "b"]⟩ "1").2
    _ _ _ (Prod.ext rfl hbelow)
  exact ⟨⟨_, loc, file, Prod.ext rfl hnew, hwrote⟩, ⟨_, loc', file', Prod.ext rfl hover, hwrote'⟩,
    ⟨_, other, Prod.ext rfl hfile, hother, hmode ⟨Text.encode "kept", 0o444⟩ rfl rfl rfl⟩,
    _, Prod.ext rfl hbelow, hkept _ _ rfl⟩

/-- The program does not keep its old permissions with the one to be written by its owner: it no
longer runs as its owner. -/
theorem write_sealedTree :
    sealedTree.find? ["w", "a"] = some (.file ⟨Text.encode "old", 0o4444⟩) ∧
      (write sealedTree ⟨.root, ["w", "a"]⟩ "1").2 = .ok () ∧
      (write sealedTree ⟨.root, ["w", "a"]⟩ "1").1.file "/w/a" = .ok ⟨Text.encode "1", 0o644⟩ ∧
      0o644 ≠ 0o4444 ||| ownerWrite := by
  decide +kernel

end Autogen.Descriptor
