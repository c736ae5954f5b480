import Mathlib.Data.List.Forall2
import Mathlib.Logic.Basic

/-!
# Outcomes of what can fail

Where the fault or the result of a computation comes from, what can be said of either of them, and
how the outcomes of two computations are compared.

## Main definitions

* `fault?` — the fault of an outcome.
* `Meets` — an outcome whose fault or result is as it should be.
* `Follows`, `Survives` — an outcome that is the same as another one, or fails only if that one
  does, unless it says that a loop was met.

## Main statements

* `map_eq_map` — outcomes that become the same fail alike, or succeed alike.
* `mapM_eq_ok` — a list is read if its items are read one by one.
-/

namespace Autogen

section Origin

variable {ε ε' α β : Type} {items : List α} {fault : ε}

theorem bind_eq_ok {x : Except ε α} {f : α → Except ε β} {b : β} :
    x >>= f = .ok b ↔ ∃ a, x = .ok a ∧ f a = .ok b := by
  cases x with
  | error e => simp [bind, Except.bind]
  | ok a => simp [bind, Except.bind]

theorem bind_eq_error {x : Except ε α} {f : α → Except ε β} :
    x >>= f = .error fault ↔ x = .error fault ∨ ∃ a, x = .ok a ∧ f a = .error fault := by
  cases x with
  | error e => simp [bind, Except.bind]
  | ok a => simp [bind, Except.bind]

/-- The fault of an outcome, if it is one. -/
def fault? : Except ε α → Option ε
  | .error fault => some fault
  | .ok _ => none

theorem eq_error_of_fault? {x : Except ε α} (h : fault? x = some fault) : x = .error fault := by
  cases x with
  | error other => exact congrArg Except.error (Option.some.inj h)
  | ok a => cases h

/-- Whether an outcome is a given fault can be decided without comparing results. -/
instance decidableEqError [DecidableEq ε] (x : Except ε α) (fault : ε) :
    Decidable (x = .error fault) :=
  decidable_of_iff (fault? x = some fault) ⟨eq_error_of_fault?, by rintro rfl; rfl⟩

/-- Whether an outcome has a result can be decided without comparing results. -/
instance decidableExistsEqOk (x : Except ε α) : Decidable (∃ a, x = .ok a) :=
  match x with
  | .ok a => isTrue ⟨a, rfl⟩
  | .error _ => isFalse (by rintro ⟨_, heq⟩; cases heq)

/-- What holds of the result of an outcome is decided by looking at the result. -/
instance decidableExistsOk (x : Except ε α) (P : α → Prop) [∀ a, Decidable (P a)] :
    Decidable (∃ a, x = .ok a ∧ P a) :=
  match x with
  | .ok a =>
      decidable_of_iff (P a) ⟨fun h => ⟨a, rfl, h⟩, by rintro ⟨_, heq, h⟩; cases heq; exact h⟩
  | .error _ => isFalse (by rintro ⟨_, heq, -⟩; cases heq)

theorem mapError_ok (f : ε → ε') (a : α) : (Except.ok a : Except ε α).mapError f = .ok a := rfl

theorem mapError_error (f : ε → ε') :
    (Except.error fault : Except ε α).mapError f = .error (f fault) := rfl

theorem mapError_eq_ok {x : Except ε α} {f : ε → ε'} {a : α} :
    x.mapError f = .ok a ↔ x = .ok a := by
  cases x <;> simp [mapError_ok, mapError_error]

/-- Outcomes that are the same when only a part of their results is looked at. -/
theorem map_eq_map {γ : Type} {x : Except ε α} {y : Except ε β} {f : α → γ} {h : β → γ} :
    x.map f = y.map h ↔ (∃ fault, x = .error fault ∧ y = .error fault) ∨
      ∃ a b, x = .ok a ∧ y = .ok b ∧ f a = h b := by
  cases x <;> cases y <;> simp [Except.map, eq_comm]

/-- Reading a list is reading its items one by one. -/
theorem mapM_eq_ok {f : α → Except ε β} {results : List β} :
    items.mapM f = .ok results ↔ List.Forall₂ (fun a b => f a = .ok b) items results := by
  induction items generalizing results with
  | nil => simp [pure, Except.pure, eq_comm]
  | cons item rest ih =>
    rw [List.mapM_cons, List.forall₂_cons_left_iff, bind_eq_ok]
    refine exists_congr fun first => ?_
    rw [bind_eq_ok]
    constructor
    · rintro ⟨hfirst, others, hothers, heq⟩
      cases heq
      exact ⟨others, hfirst, ih.mp hothers, rfl⟩
    · rintro ⟨others, hfirst, hothers, rfl⟩
      exact ⟨hfirst, others, ih.mpr hothers, rfl⟩

/-- In lists that are related item by item, every item of either one is related to one of the
other. -/
theorem mem_of_forall₂ {R : α → β → Prop} {results : List β} (h : List.Forall₂ R items results) :
    (∀ a ∈ items, ∃ b ∈ results, R a b) ∧ ∀ b ∈ results, ∃ a ∈ items, R a b := by
  induction h with
  | nil => exact ⟨nofun, nofun⟩
  | cons hfirst _ ih => grind

/-- What is read from an item of a list is among what is read from the list. -/
theorem exists_mem_of_mapM {f : α → Except ε β} {results : List β}
    (h : items.mapM f = .ok results) :
    ∀ a ∈ items, ∃ b ∈ results, f a = .ok b :=
  (mem_of_forall₂ (mapM_eq_ok.mp h)).1

/-- What is read from the items of a list is read from one of them. -/
theorem exists_of_mapM {f : α → Except ε β} {results : List β} (h : items.mapM f = .ok results) :
    ∀ b ∈ results, ∃ a ∈ items, f a = .ok b :=
  (mem_of_forall₂ (mapM_eq_ok.mp h)).2

/-- Reading the items of a list fails at one of them. -/
theorem exists_of_mapM_eq_error {f : α → Except ε β} (h : items.mapM f = .error fault) :
    ∃ a ∈ items, f a = .error fault := by
  induction items with
  | nil => cases h
  | cons item rest ih =>
    rw [List.mapM_cons] at h
    rcases bind_eq_error.mp h with hitem | ⟨first, -, h⟩
    · exact ⟨item, List.mem_cons_self, hitem⟩
    · rcases bind_eq_error.mp h with hrest | ⟨others, -, h⟩
      · obtain ⟨a, ha, hfails⟩ := ih hrest
        exact ⟨a, List.mem_cons_of_mem _ ha, hfails⟩
      · cases h

/-- Going through the items of a list fails at one of them. -/
theorem exists_of_foldlM_eq_error {f : β → α → Except ε β} {start : β}
    (h : items.foldlM f start = .error fault) : ∃ a ∈ items, ∃ b, f b a = .error fault := by
  induction items generalizing start with
  | nil => cases h
  | cons item rest ih =>
    rw [List.foldlM_cons] at h
    rcases bind_eq_error.mp h with hitem | ⟨next, -, h⟩
    · exact ⟨item, List.mem_cons_self, start, hitem⟩
    · obtain ⟨a, ha, hfails⟩ := ih h
      exact ⟨a, List.mem_cons_of_mem _ ha, hfails⟩

end Origin

/-! ## What an outcome is like -/

section Meets

variable {ε ε' α β : Type} {refused : ε → Prop} {P P' : α → Prop} {Q : β → Prop} {x : Except ε α}

/-- An outcome whose result has a property, or whose fault has one if there is no result. -/
inductive Meets (refused : ε → Prop) (P : α → Prop) : Except ε α → Prop where
  | error {fault : ε} (h : refused fault) : Meets refused P (.error fault)
  | ok {a : α} (h : P a) : Meets refused P (.ok a)

namespace Meets

theorem of_ok {a : α} (h : Meets refused P x) (hx : x = .ok a) : P a := by
  subst hx
  cases h
  assumption

theorem bind {f : α → Except ε β} (h : Meets refused P x)
    (hf : ∀ a, x = .ok a → P a → Meets refused Q (f a)) : Meets refused Q (x >>= f) := by
  cases h with
  | error h => exact .error h
  | ok h => exact hf _ rfl h

theorem mono (h : Meets refused P x) (hP : ∀ a, P a → P' a) : Meets refused P' x := by
  cases h with
  | error h => exact .error h
  | ok h => exact .ok (hP _ h)

/-- The result of an outcome is the one that it has. -/
theorem self (h : Meets refused P x) : Meets refused (fun a => x = .ok a) x := by
  cases h with
  | error h => exact .error h
  | ok h => exact .ok rfl

theorem map {f : α → β} (h : Meets refused P x) (hf : ∀ a, P a → Q (f a)) :
    Meets refused Q (f <$> x) := by
  cases h with
  | error h => exact .error h
  | ok h => exact .ok (hf _ h)

theorem mapError {refused' : ε' → Prop} {into : ε → ε'} (h : Meets refused P x)
    (hinto : ∀ fault, refused fault → refused' (into fault)) :
    Meets refused' P (x.mapError into) := by
  cases h with
  | error h => exact .error (hinto _ h)
  | ok h => exact .ok h

/-- Reading the items of a list: each of them gives a result as it should be, and nothing else
does. -/
theorem mapM {P : α → β → Prop} {f : α → Except ε β} {xs : List α}
    (hf : ∀ a ∈ xs, Meets refused (P a) (f a)) :
    Meets refused (fun bs => (∀ a ∈ xs, ∃ b ∈ bs, P a b) ∧ ∀ b ∈ bs, ∃ a ∈ xs, P a b)
      (xs.mapM f) := by
  induction xs with
  | nil => exact .ok ⟨nofun, nofun⟩
  | cons a xs ih =>
    rw [List.mapM_cons]
    refine (hf a List.mem_cons_self).bind fun b _ hb => ?_
    refine (ih fun c hc => hf c (List.mem_cons_of_mem _ hc)).bind fun bs _ ⟨hall, honly⟩ => ?_
    refine .ok ⟨?_, ?_⟩
    · grind
    · grind

end Meets

end Meets

/-! ## Outcomes that follow others -/

section Follows

variable {ε ε' α β : Type} {loop : ε → Prop} {loop' : ε' → Prop} {x y : Except ε α}

/-- An outcome that is the same as another one, or says that a loop was met. -/
def Follows (loop : ε → Prop) (x y : Except ε α) : Prop :=
  y = x ∨ ∃ fault, loop fault ∧ y = .error fault

namespace Follows

theorem refl (x : Except ε α) : Follows loop x x :=
  .inl rfl

theorem bind {f f' : α → Except ε β} (h : Follows loop x y)
    (hf : ∀ a, x = .ok a → Follows loop (f a) (f' a)) : Follows loop (x >>= f) (y >>= f') := by
  rcases h with rfl | ⟨fault, hloop, rfl⟩
  · cases y with
    | error fault => exact refl _
    | ok a => exact hf a rfl
  · exact .inr ⟨fault, hloop, rfl⟩

theorem mapM {f f' : α → Except ε β} {xs : List α} (hf : ∀ a ∈ xs, Follows loop (f a) (f' a)) :
    Follows loop (xs.mapM f) (xs.mapM f') := by
  induction xs with
  | nil => exact refl _
  | cons a xs ih =>
    rw [List.mapM_cons, List.mapM_cons]
    refine bind (hf a List.mem_cons_self) fun b _ => ?_
    refine bind (ih fun c hc => hf c (List.mem_cons_of_mem _ hc)) fun bs _ => ?_
    exact refl _

theorem foldlM {f f' : β → α → Except ε β} {xs : List α} {b : β}
    (hf : ∀ a ∈ xs, ∀ b, Follows loop (f b a) (f' b a)) :
    Follows loop (xs.foldlM f b) (xs.foldlM f' b) := by
  induction xs generalizing b with
  | nil => exact refl _
  | cons a xs ih =>
    rw [List.foldlM_cons, List.foldlM_cons]
    refine bind (hf a List.mem_cons_self b) fun c _ => ?_
    exact ih fun d hd => hf d (List.mem_cons_of_mem _ hd)

theorem mapError {into : ε → ε'} (h : Follows loop x y)
    (hinto : ∀ fault, loop fault → loop' (into fault)) :
    Follows loop' (x.mapError into) (y.mapError into) := by
  rcases h with rfl | ⟨fault, hloop, rfl⟩
  · exact refl _
  · exact .inr ⟨into fault, hinto fault hloop, rfl⟩

end Follows

/-- An outcome that does not fail where another one does not, unless it says that a loop was met. -/
def Survives (loop : ε → Prop) (x y : Except ε α) : Prop :=
  ∀ a, x = .ok a → (∃ b, y = .ok b) ∨ ∃ fault, loop fault ∧ y = .error fault

theorem Follows.survives (h : Follows loop x y) : Survives loop x y := by
  rintro a rfl
  exact h.imp_left fun heq => ⟨a, heq⟩

namespace Survives

theorem bind {x y : Except ε α} {f f' : α → Except ε β} (h : Survives loop x y)
    (hf : ∀ a b, Survives loop (f a) (f' b)) : Survives loop (x >>= f) (y >>= f') := by
  intro c hc
  cases x with
  | error fault => cases hc
  | ok a =>
    rcases h a rfl with ⟨b, rfl⟩ | ⟨fault, hloop, rfl⟩
    · exact hf a b c hc
    · exact .inr ⟨fault, hloop, rfl⟩

theorem mapM {f f' : α → Except ε β} {xs : List α} (hf : ∀ a ∈ xs, Survives loop (f a) (f' a)) :
    Survives loop (xs.mapM f) (xs.mapM f') := by
  induction xs with
  | nil => exact (Follows.refl _).survives
  | cons a xs ih =>
    rw [List.mapM_cons, List.mapM_cons]
    refine bind (hf a List.mem_cons_self) fun b c => ?_
    refine bind (ih fun d hd => hf d (List.mem_cons_of_mem _ hd)) fun bs cs => ?_
    exact fun _ _ => .inl ⟨_, rfl⟩

end Survives

end Follows

end Autogen
