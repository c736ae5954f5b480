import Autogen.Layout
import Autogen.Proofs.FileSystem.Readback
import Mathlib.Data.List.Nodup

/-!
# Names of generated files

What the name of a file that is generated for a resource file tells about the resource file. The
directory of the resource file is told by a checksum of a text, and two directories never have the
same text. The suffix of the resource file is not told at all.

## Main definitions

* `Labelled` — roots that are told apart by their labels.

## Main statements

* `Path.stem_append_suffix`, `Path.eq_of_parent_name` — a path is told by its directory, its stem
  and its suffix.
* `checksumSeed_eq_iff` — the texts that stand for two directories are different.
* `length_seedChecksum` — all checksums have the same length.
* `requireChecksums_eq_error` — why files have no checksums.
* `resourceOutput_eq_iff` — two resource files have the same output exactly if they have the same
  directory and the same stem.
-/

namespace Autogen

open FileSystem

namespace Path

/-! ## Directory, stem and suffix -/

theorem splitName_append (name : List Char) : (splitName name).1 ++ (splitName name).2 = name := by
  have hname : name.reverse.takeWhile (· != '.') ++ name.reverse.dropWhile (· != '.') =
      name.reverse :=
    List.takeWhile_append_dropWhile
  unfold splitName
  simp only
  split
  · rename_i before hrest
    rw [hrest] at hname
    split
    · exact List.append_nil name
    · have hreversed := congrArg List.reverse hname
      simpa using hreversed
  · exact List.append_nil name

theorem stem_append_suffix (p : Path) : p.stem ++ p.suffix = p.name := by
  rw [stem, suffix, ← String.ofList_append, splitName_append, String.ofList_toList]

/-- The names of a path are those of its directory and the last one. -/
theorem parts_eq {p : Path} (hp : p.Named) :
    p.parts = p.parent.parts ++ if p.name = "" then [] else [p.name] := by
  rcases List.eq_nil_or_concat p.parts with hparts | ⟨front, last, hparts⟩
  · simp [parent, name, hparts]
  · have hlast : last ≠ "" := (hp last (by simp [hparts])).1
    simp [parent, name, hparts, hlast]

/-- A path is told by its directory and its last name. -/
theorem eq_of_parent_name {p q : Path} (hp : p.Named) (hq : q.Named) (hparent : p.parent = q.parent)
    (hname : p.name = q.name) : p = q := by
  have hparts : p.parts = q.parts := by
    rw [parts_eq hp, parts_eq hq, hparent, hname]
  have hanchor : p.anchor = q.anchor := (Path.mk.inj hparent).1
  obtain ⟨anchor, parts⟩ := p
  subst hanchor hparts
  rfl

/-- What lies below a root is told by the way down from the root. -/
theorem eq_of_relativeTo? {root p rest : Path} (h : root.relativeTo? p = some rest) :
    p = { root with parts := root.parts ++ rest.parts } ∧ rest.anchor = .relative ∧
      rest.parts ⊆ p.parts := by
  unfold relativeTo? at h
  split at h
  · rename_i hunder
    simp only [isUnder, Bool.and_eq_true, beq_iff_eq, List.isPrefixOf_iff_prefix] at hunder
    obtain ⟨hanchor, more, hmore⟩ := hunder
    obtain rfl := Option.some.inj h
    obtain ⟨anchor, parts⟩ := p
    subst hanchor hmore
    exact ⟨by simp, rfl, List.drop_subset _ _⟩
  · cases h

end Path

/-! ## Texts for directories -/

/-- Roots that are told apart by their labels, which are names. -/
structure Labelled (roots : List (String × String)) : Prop where
  nodup : (roots.map (·.1)).Nodup
  label : ∀ root ∈ roots, root.1 ≠ "" ∧ '/' ∉ root.1.toList

theorem Graph.labelled_checksumRoots (g : Graph) (t : Target) : Labelled (g.checksumRoots t) := by
  constructor
  · simp [checksumRoots]
  · simp [checksumRoots]

variable {roots : List (String × String)} {path path' : String}

/-- The text for a directory below a root has the label and the way down, and the text for any other
one is its own. -/
theorem checksumSeed_cases (path : String) (roots : List (String × String)) :
    (∃ root ∈ roots, ∃ rest,
      (Path.ofString root.2).relativeTo? (Path.ofString path).parent = some rest ∧
        checksumSeed path roots = root.1 ++ "/" ++ rest.text) ∨
      checksumSeed path roots = (Path.ofString path).parent.text := by
  unfold checksumSeed
  simp only
  split
  · rename_i seed hseed
    obtain ⟨root, hroot, hsome⟩ := List.exists_of_findSome?_eq_some hseed
    obtain ⟨rest, hrest, rfl⟩ := Option.map_eq_some_iff.mp hsome
    exact .inl ⟨root, hroot, rest, hrest, rfl⟩
  · exact .inr rfl

theorem append_slash_inj {label label' rest rest' : String} (h : '/' ∉ label.toList)
    (h' : '/' ∉ label'.toList) (heq : label ++ "/" ++ rest = label' ++ "/" ++ rest') :
    label = label' ∧ rest = rest' := by
  have hsplit := congrArg (Text.splitOn "/") heq
  rw [Text.splitOn_append slash_toList slash_isHoldingPart,
    Text.splitOn_append slash_toList slash_isHoldingPart,
    Text.splitOn_of_not_mem slash_toList slash_isHoldingPart h,
    Text.splitOn_of_not_mem slash_toList slash_isHoldingPart h'] at hsplit
  obtain ⟨rfl, -⟩ := List.cons.inj hsplit
  exact ⟨rfl, by simpa using heq⟩

theorem startsAtRoot_label {label : String} (h : label ≠ "" ∧ '/' ∉ label.toList) (rest : String) :
    startsAtRoot (label ++ "/" ++ rest) = false := by
  obtain ⟨c, cs, hlabel⟩ := List.exists_cons_of_ne_nil (l := label.toList) (by simpa using h.1)
  have hc : c ≠ '/' := by
    rintro rfl
    exact h.2 (hlabel ▸ List.mem_cons_self)
  simp [startsAtRoot, hlabel, hc]

/-- Two texts for directories are equal exactly if the directories are. -/
theorem checksumSeed_eq_iff (hroots : Labelled roots) (h : startsAtRoot path = true)
    (h' : startsAtRoot path' = true) :
    checksumSeed path roots = checksumSeed path' roots ↔
      (Path.ofString path).parent = (Path.ofString path').parent := by
  have hnamed (path : String) : (Path.ofString path).parent.Named :=
    (Path.named_ofString path).of_subset (List.dropLast_subset _)
  have habsolute {path : String} (h : startsAtRoot path = true) :
      startsAtRoot (Path.ofString path).parent.text = true :=
    startsAtRoot_text ((isAbsolute_ofString path).trans h)
  refine ⟨fun heq => ?_, fun heq => by rw [checksumSeed, checksumSeed, heq]⟩
  rcases checksumSeed_cases path roots with ⟨root, hroot, rest, hrest, hseed⟩ | hseed <;>
    rcases checksumSeed_cases path' roots with ⟨root', hroot', rest', hrest', hseed'⟩ | hseed' <;>
    rw [hseed, hseed'] at heq
  -- A label has no slash, so the first one in the text ends it, and different roots have different
  -- labels.
  · obtain ⟨hlabel, htext⟩ :=
      append_slash_inj (hroots.label root hroot).2 (hroots.label root' hroot').2 heq
    have hsame : root = root' := List.inj_on_of_nodup_map hroots.nodup hroot hroot' hlabel
    subst hsame
    obtain ⟨hdir, hanchor, hsub⟩ := Path.eq_of_relativeTo? hrest
    obtain ⟨hdir', hanchor', hsub'⟩ := Path.eq_of_relativeTo? hrest'
    have hways : rest = rest' :=
      ((hnamed path).of_subset hsub).eq_of_text ((hnamed path').of_subset hsub') htext
    rw [hdir, hdir', hways]
  · -- A label is a name, so no text that has one starts at the root.
    have hstart := startsAtRoot_label (hroots.label root hroot) rest.text
    rw [heq, habsolute h'] at hstart
    cases hstart
  · have hstart := startsAtRoot_label (hroots.label root' hroot') rest'.text
    rw [← heq, habsolute h] at hstart
    cases hstart
  · exact (hnamed path).eq_of_text (hnamed path') heq

/-! ## Checksums -/

namespace Digest

theorem length_base32Digits (count n : Nat) : (base32Digits count n).length = count := by
  induction count generalizing n with
  | zero => rfl
  | succ count ih => simp [base32Digits, ih]

theorem length_base32Group {group : List UInt8} (h : group.length ≤ 5) :
    (base32Group group).length = 8 := by
  simp only [base32Group, List.length_append, List.length_replicate, length_base32Digits]
  omega

/-- Five bytes are spelled by eight characters. -/
theorem length_base32Chars (bytes : List UInt8) :
    (base32Chars bytes).length = 8 * ((bytes.length + 4) / 5) := by
  fun_induction base32Chars bytes with
  | case1 a b c d e rest ih =>
    rw [List.length_append, length_base32Group (by simp), ih]
    simp only [List.length_cons]
    omega
  | case2 => rfl
  | case3 group hlong hempty =>
    have hshort : 0 < group.length ∧ group.length < 5 := by
      rcases group with _ | ⟨a, _ | ⟨b, _ | ⟨c, _ | ⟨d, _ | ⟨e, rest⟩⟩⟩⟩⟩
      · exact absurd rfl hempty
      · simp
      · simp
      · simp
      · simp
      · exact absurd rfl (hlong a b c d e rest)
    rw [length_base32Group hshort.2.le]
    omega

theorem length_bigEndian (width n : Nat) : (bigEndian width n).length = width := by
  induction width generalizing n with
  | zero => rfl
  | succ width ih => simp [bigEndian, ih]

theorem length_sha256 (message : List UInt8) : (sha256 message).length = 32 := by
  simp [sha256, output, length_bigEndian]

end Digest

/-- All checksums have the same length. -/
theorem length_seedChecksum (seed : String) :
    (seedChecksum seed).toList.length = checksumLength := by
  rw [seedChecksum, String.toList_ofList, List.length_take, Digest.length_base32Chars,
    Digest.length_sha256]
  rfl

/-- Checksums are refused where the directory of one of the files cannot be spelled in bytes. -/
theorem requireChecksums_eq_error {paths : List String} {fault : SpellingFault}
    (h : requireChecksums paths roots = .error fault) :
    fault = .unencodable ∧ ∃ path ∈ paths, Text.isEncodable (checksumSeed path roots) = false := by
  unfold requireChecksums at h
  split at h
  · cases h
  · rename_i hsome
    cases h
    simpa using hsome

/-! ## Outputs -/

/-- Two resource files have the same output exactly if they have the same directory and the same
stem, where the checksum tells their directories apart. -/
theorem resourceOutput_eq_iff (hroots : Labelled roots) (h : startsAtRoot path = true)
    (h' : startsAtRoot path' = true)
    (hinj : pathChecksum path roots = pathChecksum path' roots →
      checksumSeed path roots = checksumSeed path' roots) (buildDir : String) :
    resourceOutput buildDir path roots = resourceOutput buildDir path' roots ↔
      (Path.ofString path).parent = (Path.ofString path').parent ∧
        (Path.ofString path).stem = (Path.ofString path').stem := by
  rw [← checksumSeed_eq_iff hroots h h']
  constructor
  · intro heq
    have hchars := congrArg String.toList heq
    simp only [resourceOutput, String.toList_append, List.append_assoc,
      List.append_cancel_left_eq] at hchars
    -- All checksums have one length, so both outputs end their directories at the same place.
    obtain ⟨hchecksum, hrest⟩ := List.append_inj hchars
      ((length_seedChecksum _).trans (length_seedChecksum _).symm)
    rw [List.append_cancel_left_eq, List.append_cancel_right_eq] at hrest
    exact ⟨hinj (String.toList_injective hchecksum), String.toList_injective hrest⟩
  · rintro ⟨hseed, hstem⟩
    rw [resourceOutput, resourceOutput, pathChecksum, pathChecksum, hseed, hstem]

end Autogen
