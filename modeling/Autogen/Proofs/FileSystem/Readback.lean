import Autogen.Proofs.FileSystem.Canonical

/-!
# Canonical paths read back

The names of a canonical path are kept when its text is read, whatever the links on the way are:
they come from the pieces of spelled paths, or are names of the parent directory.

## Main statements

* `resolve_named` — resolving arrives at a path whose names are kept, in every tree.
* `text_ofString_of_canonicalPath` — a canonical path is the text of what is read from it.
-/

namespace Autogen

open FileSystem

/-! ## Names that resolving arrives at -/

namespace FileSystem

variable {fs : FileSystem} {here place : Path}

theorem named_above (h : here.Named) : (above here).Named := by
  unfold above
  split
  · exact h.snoc (by decide)
  · exact h.of_subset (List.dropLast_subset _)

theorem named_pieces (hhere : here.Named) (text : String) : (pieces here text).1.Named := by
  unfold pieces
  simp only
  split
  · exact fun n hn => absurd hn List.not_mem_nil
  · exact hhere

/-- The links that are resolved lead to paths whose names are kept. -/
def Links.Named (links : Links) : Prop :=
  ∀ p place, links.get? p = some (some place) → place.Named

/-- A resolution that is not broken off arrives at a path whose names are kept. -/
def Resolution.Named : Resolution → Prop
  | .done place links => place.Named ∧ Links.Named links
  | .stopped _ => True

theorem Links.Named.insert {links : Links} (h : Links.Named links) (there : Path)
    {value : Option Path} (hvalue : ∀ place, value = some place → place.Named) :
    Links.Named (links.insert there value) :=
  Links.forall_insert h there hvalue

/-- A way to resolve the targets of links that arrives at paths whose names are kept. -/
def KeepsNames (enter : Path → String → Links → Except PathFault Resolution) : Prop :=
  ∀ {here target links r}, here.Named → Links.Named links →
    enter here target links = .ok r → r.Named

variable [Environment]

theorem resolvePieces_named {enter : Path → String → Links → Except PathFault Resolution}
    (henter : KeepsNames enter) {links : Links} {names : List String} {r : Resolution}
    (hhere : here.Named) (hlinks : Links.Named links) (hnames : ∀ n ∈ names, '/' ∉ n.toList)
    (hr : fs.resolvePieces enter here links names = .ok r) : r.Named := by
  induction names generalizing here links with
  | nil =>
    cases hr
    exact ⟨hhere, hlinks⟩
  | cons name rest ih =>
    obtain ⟨hslash, hrest⟩ := List.forall_mem_cons.mp hnames
    rw [resolvePieces] at hr
    split at hr
    · exact ih hhere hlinks hrest hr
    rename_i hname
    split at hr
    · exact ih (named_above hhere) hlinks hrest hr
    simp only at hr
    split at hr
    · cases hr
    · exact ih (hhere.snoc ⟨fun h => hname (.inl h), fun h => hname (.inr h), hslash⟩)
        hlinks hrest hr
    · rename_i hmet
      exact ih (hlinks _ _ hmet) hlinks hrest hr
    · cases hr
      trivial
    · -- The link is entered as one whose end is not known yet.
      have hbelow : Links.Named (links.insert { here with parts := here.parts ++ [name] } none) :=
        hlinks.insert _ fun place hplace => by cases hplace
      split at hr
      · rename_i place links' hentered
        obtain ⟨hplace, hlinks'⟩ := henter hhere hbelow hentered
        exact ih hplace (hlinks'.insert _ fun other hother => Option.some.inj hother ▸ hplace)
          hrest hr
      · cases hr
        trivial
      · cases hr

theorem keepsNames_resolveLink (fs : FileSystem) (depth : Nat) :
    KeepsNames (fs.resolveLink depth) := by
  induction depth with
  | zero => exact fun _ _ hr => by cases hr
  | succ depth ih =>
    intro here target links r hhere hlinks hr
    exact resolvePieces_named ih (named_pieces hhere target) hlinks (slash_pieces here target) hr

/-- Resolving arrives at a path whose names are kept. -/
theorem resolve_named {p : Path} {r : Resolution} (h : fs.resolve p = .ok r) : r.path.Named := by
  have hempty : Links.Named .empty := fun other place hplace => by
    rw [OrderedMap.get?_empty] at hplace
    cases hplace
  have hstart : Path.Named ⟨.relative, []⟩ := fun n hn => absurd hn List.not_mem_nil
  have hnamed : r.Named :=
    resolvePieces_named (keepsNames_resolveLink fs linkDepth) (named_pieces hstart p.text) hempty
      (slash_pieces _ p.text) h
  cases r with
  | done place links => exact hnamed.1.collapse
  | stopped text => exact (Path.named_ofString text).collapse

/-- A canonical path is the text of what is read from it. -/
theorem text_ofString_of_canonicalPath {path text : String} {base : Option String}
    (h : canonicalPath fs path base = .ok text) : (Path.ofString text).text = text := by
  obtain ⟨p, r, hr, rfl⟩ := resolution_of_canonicalPath h
  rw [Path.ofString_text (resolve_named hr)]

end FileSystem

end Autogen
