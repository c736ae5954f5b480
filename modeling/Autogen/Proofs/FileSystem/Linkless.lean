import Autogen.Proofs.FileSystem.Canonical

/-!
# Trees without links

Where no symbolic links stand, a path says by its text where it leads: what its canonical form is
does not depend on what there is in the tree.

## Main definitions

* `FileSystem.Linkless` — a tree without symbolic links.

## Main statements

* `FileSystem.Linkless.lookup_ne_tooManyLinks` — no lookup is lost in links.
* `FileSystem.canonicalPath_linkless` — canonical paths are the same in all trees without links.
-/

namespace Autogen.FileSystem

variable {fs fs' : FileSystem}

/-- A tree without symbolic links. -/
def Linkless (fs : FileSystem) : Prop :=
  ∀ loc target, fs.find? loc ≠ some (.link target)

/-- A tree without links is recognised by its entries. -/
theorem linkless_of_entries {entries : List (Location × Node)}
    (h : ∀ entry ∈ entries, ∀ target, entry.2 ≠ .link target) :
    (⟨OrderedMap.ofList entries⟩ : FileSystem).Linkless := by
  intro loc target hlink
  unfold find? at hlink
  split at hlink
  · cases hlink
  · exact h _ (OrderedMap.mem_of_get?_ofList hlink) target rfl

/-- Growth adds no links. -/
theorem Linkless.grows (h : fs.Linkless) (hgrows : fs.Grows fs') : fs'.Linkless := by
  intro loc target hlink
  exact h loc target ((hgrows.link_iff loc target).mp hlink)

/-! ## Lookups -/

theorem Linkless.turn (h : fs.Linkless) (ending : Ending) (here : Location) (name : String)
    (rest : List String) :
    (∀ there names, fs.turn ending here name rest ≠ .link there names) ∧
      fs.turn ending here name rest ≠ .fail .tooManyLinks := by
  have hmeet (there : Location) :
      (∀ start names, fs.meet ending here there rest ≠ .link start names) ∧
        fs.meet ending here there rest ≠ .fail .tooManyLinks := by
    unfold meet
    rcases hfound : fs.find? there with _ | _ | file | target
    · cases rest <;> simp
    · simp
    · cases rest <;> simp
    · exact absurd hfound (h there target)
  unfold FileSystem.turn
  grind

theorem Linkless.lookupNames (h : fs.Linkless) (ending : Ending)
    (follow : Location → List String → Except Fault Found) (here : Location) (names : List String) :
    fs.lookupNames ending follow here names ≠ .error .tooManyLinks := by
  induction names generalizing here with
  | nil => simp [FileSystem.lookupNames]
  | cons name rest ih =>
    obtain ⟨hlink, hfail⟩ := h.turn ending here name rest
    rw [FileSystem.lookupNames]
    split <;> grind

variable [Environment]

/-- No lookup is lost in links. -/
theorem Linkless.lookup_ne_tooManyLinks (h : fs.Linkless) (ending : Ending) (text : String) :
    fs.lookup ending text ≠ .error .tooManyLinks := by
  unfold lookup
  split
  · simp
  · split
    · simp
    · exact h.lookupNames ending _ [] (namesFromRoot text)

theorem Linkless.linkTarget? (h : fs.Linkless) (p : Path) : fs.linkTarget? p = none := by
  unfold FileSystem.linkTarget?
  split
  · rename_i location target hfound
    have hnode : some (.link target) = fs.find? location := (lookup_arrives hfound).node
    exact absurd hnode.symm (h location target)
  · rfl

/-! ## Canonical paths -/

/-- Without links, what is made of the pieces of a path does not depend on the tree. -/
theorem resolvePieces_linkless (h : fs.Linkless) (h' : fs'.Linkless)
    (enter enter' : Path → String → Links → Except PathFault Resolution)
    (here : Path) (links : Links) (names : List String) :
    resolvePieces fs enter here links names = resolvePieces fs' enter' here links names := by
  induction names generalizing here with
  | nil => rfl
  | cons name rest ih =>
    simp only [resolvePieces, h.linkTarget?, h'.linkTarget?, ih]
    grind

/-- In a tree without links nothing is tangled. -/
theorem Linkless.not_tangled (h : fs.Linkless) (text : String) : ¬fs.Tangled text := by
  rintro ⟨p, place, -, -, hstraight⟩
  exact hstraight fun first more _ _ target hlink => h _ target hlink

/-- Canonical paths are the same in all trees without links. -/
theorem canonicalPath_linkless (h : fs.Linkless) (h' : fs'.Linkless) (path : String)
    (base : Option String) : canonicalPath fs path base = canonicalPath fs' path base := by
  have hresolve (p : Path) : fs.resolve p = fs'.resolve p :=
    resolvePieces_linkless h h' _ _ _ _ _
  have hcanonical (p : Path) : fs.canonical p = fs'.canonical p := by
    cases hr : fs'.resolve p with
    | error fault => simp only [canonical, hresolve, hr, bind, Except.bind]
    | ok r =>
      cases hspelling : spellingFault? r.path.text with
      | some fault =>
        rw [canonical_of_spelling hr hspelling,
          canonical_of_spelling ((hresolve p).trans hr) hspelling]
      | none =>
        rw [canonical_of_ne hr hspelling (h'.lookup_ne_tooManyLinks .target _),
          canonical_of_ne ((hresolve p).trans hr) hspelling (h.lookup_ne_tooManyLinks .target _)]
  simp only [canonicalPath, hcanonical]

end Autogen.FileSystem
