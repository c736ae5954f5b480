import Autogen.Proofs.Descriptor.Roundtrip
import Autogen.Proofs.FileSystem.Write

/-!
# Descriptor files

A descriptor that was written is read back from its file, unless the file was there before and could
not be read. Writing it once more changes nothing.

## Main definitions

* `ReadsBack` — what comes of reading a descriptor that was written.

## Main statements

* `write_grows` — writing a descriptor makes the tree of files grow, also when it fails.
* `read_write`, `readsBack_of_write` — the entries of a descriptor that was written are read back.
* `write_write` — writing the same once more changes nothing.
-/

namespace Autogen.Descriptor

open FileSystem

variable {fs fs' : FileSystem} {p : Path} {content : String}

variable [Environment]

/-- Writing a descriptor makes the tree of files grow, also when it fails. -/
theorem write_grows (htree : fs.IsTree) (p : Path) (content : String) :
    fs.Grows (write fs p content).1 := by
  unfold write
  simp only
  generalize hout :
    fs.write p (if Text.isEncodable content then Text.encode content else .empty) = out
  have hgrows := FileSystem.write_grows htree p
    (if Text.isEncodable content then Text.encode content else .empty)
  rw [hout] at hgrows
  obtain ⟨done, fault | ⟨⟩⟩ := out
  · cases fault <;> exact hgrows
  · exact hgrows

/-- A descriptor that was written has an encoding, which was written. -/
theorem write_eq_ok (h : write fs p content = (fs', .ok ())) :
    Text.isEncodable content = true ∧ fs.write p (Text.encode content) = (fs', .ok ()) := by
  unfold write at h
  simp only at h
  split at h
  · rename_i done hdone
    obtain ⟨rfl, hresult⟩ := Prod.mk.inj h
    by_cases hencodable : Text.isEncodable content
    · rw [if_pos hencodable] at hdone
      exact ⟨hencodable, hdone⟩
    · rw [if_neg hencodable] at hresult
      cases hresult
  · cases (Prod.mk.inj h).2
  · cases (Prod.mk.inj h).2

/-- A text that was written is what is read, where its file can be read. -/
theorem read_written (hplain : '\r' ∉ content.toList) (h : write fs p content = (fs', .ok ())) :
    ∃ loc file, fs.Written p fs' loc file ∧ read fs' p =
      if hasBit file.mode ownerRead then (parse content).mapError .malformed
      else .error (.file .permissionDenied) := by
  obtain ⟨hencodable, hwrite⟩ := write_eq_ok h
  obtain ⟨loc, file, hwritten, hcontent⟩ := written_of_write hwrite
  refine ⟨loc, file, hwritten, ?_⟩
  have hread : fs'.read p = file.read := by
    rw [FileSystem.read, FileSystem.file, hwritten.found]
    rfl
  rw [read, readText, hread, File.read, hcontent]
  by_cases hreadable : hasBit file.mode ownerRead
  · simp only [hreadable, if_true, Text.read?_encode hencodable hplain]
  · simp only [hreadable, Bool.false_eq_true, if_false]

/-- The entries of a descriptor that was written are read back, where its file can be read. -/
theorem read_write {sections : List Section} (hsections : ∀ s ∈ sections, s.Writable)
    (h : write fs p (format sections) = (fs', .ok ())) :
    ∃ loc file, fs.Written p fs' loc file ∧ read fs' p =
      if hasBit file.mode ownerRead then .ok (.ofList (sections.flatMap (·.entries)))
      else .error (.file .permissionDenied) := by
  obtain ⟨loc, file, hwritten, hread⟩ :=
    read_written (not_mem_format fun s hs => (hsections s hs).freeOf) h
  rw [parse_format fun s hs => (hsections s hs).legible] at hread
  exact ⟨loc, file, hwritten, hread⟩

/-- What comes of reading a descriptor that was written: it is read, or it has taken the place of a
file that its owner could not read. -/
inductive ReadsBack (fs fs' : FileSystem) (p : Path) : Prop where
  | decoded (values : OrderedMap String String) (h : read fs' p = .ok values)
  | denied {loc : Location} {file old : FileSystem.File}
      (h : read fs' p = .error (.file .permissionDenied))
      (found : fs'.lookup .target p.text = .ok ⟨loc, some (.file file)⟩)
      (before : fs.find? loc = some (.file old)) (unreadable : hasBit old.mode ownerRead = false)

theorem readsBack_of_write {sections : List Section} (hsections : ∀ s ∈ sections, s.Writable)
    (h : write fs p (format sections) = (fs', .ok ())) : ReadsBack fs fs' p := by
  obtain ⟨loc, file, hwritten, hread⟩ := read_write hsections h
  by_cases hreadable : hasBit file.mode ownerRead = true
  · rw [if_pos hreadable] at hread
    exact .decoded _ hread
  · rw [if_neg hreadable] at hread
    obtain ⟨old, hold, hmode⟩ := hwritten.unreadable_iff.mp (Bool.eq_false_iff.mpr hreadable)
    exact .denied hread hwritten.found hold hmode

omit [Environment] in
/-- A text of sections has an encoding if their texts are without the mark of halves. -/
theorem isEncodable_format {sections : List Section} (h : ∀ s ∈ sections, s.Writable)
    (htitles : ∀ s ∈ sections, Text.halfMark ∉ s.title.toList)
    (hvalues : ∀ s ∈ sections, ∀ entry ∈ s.entries, Text.halfMark ∉ entry.2.toList) :
    Text.isEncodable (format sections) = true := by
  -- Escaping adds backslashes, and behind one of them the mark of halves would stand for itself.
  have hescape {cs : List Char} (hcs : Text.halfMark ∉ cs) : Text.halfMark ∉ escapeChars cs := by
    intro hmem
    obtain ⟨c, hc, hmark⟩ := List.mem_flatMap.mp hmem
    rcases escapeChar_cases c with ⟨heq, -⟩ | ⟨mark, heq, -, -, hmark'⟩
    · rw [heq, List.mem_singleton] at hmark
      exact hcs (hmark ▸ hc)
    · rw [heq, List.mem_cons, List.mem_singleton] at hmark
      rcases hmark with hmark | rfl
      · exact absurd hmark (by decide)
      · obtain rfl : Text.halfMark = c := hmark'
        exact hcs hc
  have hline {line : String} (hline : line ∈ lines sections) : Text.halfMark ∉ line.toList := by
    rcases mem_lines hline with rfl | ⟨s, hs, rfl | ⟨entry, hentry, rfl⟩⟩
    · simp
    · have htitle := htitles s hs
      rw [String.toList_append, List.mem_append]
      exact fun hmem => hmem.elim (by decide) htitle
    · have hvalue := hescape (hvalues s hs entry hentry)
      have hname : Text.halfMark ∉ entry.1.toList := fun hmem => by
        obtain ⟨-, hmost⟩ := bounds_of_isKeyChar (((h s hs).keys entry hentry).2 _ hmem)
        exact absurd hmost (by decide)
      rw [toList_declaration]
      simp only [List.mem_append, List.mem_cons, hname, hvalue, false_or,
        List.not_mem_nil, or_false]
      decide
  refine Text.isEncodable_of_not_mem fun hmem => ?_
  rcases mem_format hmem with heq | ⟨line, hline', hmem⟩
  · exact absurd heq (by decide)
  · exact hline hline' hmem

/-- A text with an encoding can be written where anything can be written. -/
theorem write_returns (hencodable : Text.isEncodable content = true)
    (h : (fs.write p .empty).2 = .ok ()) : (write fs p content).2 = .ok () := by
  rw [FileSystem.write_result fs p .empty (Text.encode content)] at h
  unfold write
  simp only [hencodable, if_true]
  generalize fs.write p (Text.encode content) = written at h ⊢
  obtain ⟨done, result⟩ := written
  subst h
  rfl

/-- Writing the same once more changes nothing. -/
theorem write_write (htree : fs.IsTree) (h : write fs p content = (fs', .ok ())) :
    write fs' p content = (fs', .ok ()) := by
  obtain ⟨hencodable, hwrite⟩ := write_eq_ok h
  have hagain := FileSystem.write_write htree hwrite
  unfold write
  simp only [hencodable, if_true, hagain]

end Autogen.Descriptor
