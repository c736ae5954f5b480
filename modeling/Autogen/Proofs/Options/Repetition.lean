import Autogen.Proofs.Options.Merging

/-!
# Merging the same options again

Merging the options of a file a second time changes nothing, unless the file gives an option several
values or the target has an option of the file in a place for values.

## Main definitions

* `Options.items` — the items of which a list of tokens is made.
* `Options.behind` — the token behind the first place of an option.
* `Options.Steady` — lists whose merging can be repeated.

## Main statements

* `Options.merge_merge` — merging again changes nothing.
* `Options.merge_merge_ne` — merging again changes an option that is given two values.
-/

namespace Autogen.Options

variable {stripDoubleDash : Bool}

/-! ## Items of a list -/

/-- The items of a list of tokens. An option at the end has no value, even if it takes one. -/
def items (stripDoubleDash : Bool) : List String → List Item
  | [] => []
  | [token] => [⟨token, none⟩]
  | token :: value :: rest =>
    if takesValue stripDoubleDash token then ⟨token, some value⟩ :: items stripDoubleDash rest
    else ⟨token, none⟩ :: items stripDoubleDash (value :: rest)

theorem takesValue_of_mem_items {tokens : List String} {item : Item}
    (h : item ∈ items stripDoubleDash tokens) (hvalue : item.value?.isSome) :
    takesValue stripDoubleDash item.head := by
  fun_induction items stripDoubleDash tokens with
  | case1 => cases h
  | case2 token =>
    obtain rfl := List.mem_singleton.mp h
    cases hvalue
  | case3 token value rest htakes ih =>
    rcases List.mem_cons.mp h with rfl | h
    · exact htakes
    · exact ih h
  | case4 token value rest hsingle ih =>
    rcases List.mem_cons.mp h with rfl | h
    · cases hvalue
    · exact ih h

/-! ## Places of values -/

/-- The token behind the first place of an option. -/
def behind (tokens : List String) (option : String) : Option String :=
  tokens[tokens.idxOf option + 1]?

/-- The tokens with a value written behind the first place of an option. -/
def put (tokens : List String) (option value : String) : List String :=
  tokens.set (tokens.idxOf option + 1) value

section Places

variable {tokens more : List String} {option other old value : String}

theorem mem_of_behind (h : behind tokens option = some value) : option ∈ tokens := by
  grind [behind]

theorem behind_append (h : behind tokens option = some value) :
    behind (tokens ++ more) option = some value := by
  have hmem := mem_of_behind h
  grind [behind]

theorem behind_append_of_not_mem (h : option ∉ tokens) :
    behind (tokens ++ more) option = behind more option := by
  grind [behind]

theorem put_of_behind (h : behind tokens option = some value) :
    put tokens option value = tokens := by
  obtain ⟨hlt, heq⟩ := List.getElem?_eq_some_iff.mp h
  rw [put, ← heq, List.set_getElem_self]

/-- Writing behind a place leaves the first place of another token where it is, if neither the token
that goes nor the one that comes is that token. -/
theorem idxOf_set {place : Nat} (hold : tokens[place]? ≠ some other) (hnew : value ≠ other) :
    (tokens.set place value).idxOf other = tokens.idxOf other := by
  induction tokens generalizing place with
  | nil => rfl
  | cons token rest ih => cases place <;> grind

theorem idxOf_put_self (tokens : List String) (option value : String) :
    (put tokens option value).idxOf option = tokens.idxOf option := by
  unfold put
  induction tokens with
  | nil => rfl
  | cons token rest ih => grind

theorem behind_put_self (h : behind tokens option = some old) :
    behind (put tokens option value) option = some value := by
  rw [behind, idxOf_put_self]
  grind [behind, put]

theorem behind_put_of_ne (h : behind tokens option = some old) (hoption : other ≠ option)
    (hold : other ≠ old) (hvalue : other ≠ value) :
    behind (put tokens option value) other = behind tokens other := by
  have hplace : tokens[tokens.idxOf option + 1]? ≠ some other := by
    grind [behind]
  have hidx : (put tokens option value).idxOf other = tokens.idxOf other :=
    idxOf_set hplace (Ne.symm hvalue)
  have hapart : tokens.idxOf option ≠ tokens.idxOf other := by
    rw [ne_eq, List.idxOf_inj (mem_of_behind h)]
    exact Ne.symm hoption
  rw [behind, behind, hidx, put, List.getElem?_set_ne (by omega)]

theorem mem_put (h : behind tokens option = some old) (hmem : other ∈ tokens)
    (hkept : other = old → other = value) : other ∈ put tokens option value := by
  obtain ⟨place, hplace⟩ := List.mem_iff_getElem?.mp hmem
  rw [List.mem_iff_getElem?]
  exact ⟨place, by grind [behind, put]⟩

theorem mem_of_mem_put (h : other ∈ put tokens option value) (hne : other ≠ value) :
    other ∈ tokens :=
  (List.mem_or_eq_of_mem_set h).resolve_right hne

end Places

/-! ## Steady lists -/

/-- Lists whose merging can be repeated, by the items of the file: no option is given two values, no
value is another option that is given one, and where the target has an option that is given a value,
what is written over is that value already or no option of the file. -/
structure Steady (all : List Item) (target : List String) : Prop where
  oneValue : ∀ item ∈ all, ∀ other ∈ all, item.head = other.head →
    ∀ value ∈ item.value?, ∀ value' ∈ other.value?, value = value'
  valueApart : ∀ item ∈ all, ∀ value ∈ item.value?, ∀ other ∈ all, other.value?.isSome →
    other.head = value → other.head = item.head
  followed : ∀ item ∈ all, ∀ value ∈ item.value?, item.head ∈ target →
    ∃ old ∈ behind target item.head, old = value ∨ old ∉ all.map Item.head

/-- An item is among tokens, with its value behind the first place of its option. -/
def Settled (tokens : List String) (item : Item) : Prop :=
  item.head ∈ tokens ∧ ∀ value ∈ item.value?, behind tokens item.head = some value

theorem Settled.append {tokens : List String} {item : Item} (h : Settled tokens item)
    (more : List String) :
    Settled (tokens ++ more) item :=
  ⟨List.mem_append_left _ h.1, fun value hvalue => behind_append (h.2 value hvalue)⟩

/-- Merging what is settled changes nothing. -/
theorem update_of_settled {tokens file : List String}
    (h : ∀ item ∈ items stripDoubleDash file, Settled tokens item) :
    update stripDoubleDash tokens file = (tokens, []) := by
  fun_induction update stripDoubleDash tokens file with
  | case1 merged => rfl
  | case2 merged token =>
    have hshared : token ∈ merged := (h ⟨token, none⟩ (by simp [items])).1
    rw [if_pos hshared]
  | case3 merged token value rest hshared place hwritten ih =>
    rw [items, if_pos hwritten.1, List.forall_mem_cons] at h
    have hsame : merged.set place value = merged := put_of_behind (h.1.2 value rfl)
    rw [hsame] at ih ⊢
    exact ih h.2
  | case4 merged token value rest hshared place hkept ih =>
    rw [items] at h
    split at h
    · rename_i htakes
      rw [List.forall_mem_cons] at h
      -- The value of a settled option stands behind it, so there was a place to write to.
      have hplace := (List.getElem?_eq_some_iff.mp (h.1.2 value rfl)).1
      exact absurd ⟨htakes, hplace⟩ hkept
    · exact ih (List.forall_mem_cons.mp h).2
  | case5 merged token value rest hnew htakes later extra hupdate ih =>
    rw [items, if_pos htakes, List.forall_mem_cons] at h
    exact absurd h.1.1 hnew
  | case6 merged token value rest hnew htakes later extra hupdate ih =>
    rw [items, if_neg htakes, List.forall_mem_cons] at h
    exact absurd h.1.1 hnew

/-! ## Merging step by step -/

/-- What holds in the middle of merging a file: the target as it is by now is steady, an option
among the added tokens that is given a value has it behind it there, and the items looked at are
settled. -/
structure Underway (all todo : List Item) (merged extra : List String) : Prop where
  steady : Steady all merged
  added : ∀ item ∈ all, ∀ value ∈ item.value?, item.head ∉ merged → item.head ∈ extra →
    behind extra item.head = some value
  settled : ∀ item ∈ all, item ∈ todo ∨ Settled (merged ++ extra) item

section Underway

variable {all todo : List Item} {item : Item} {merged extra : List String}

/-- An item without a value whose option is there is passed over. -/
theorem Underway.pass (h : Underway all (item :: todo) merged extra) (hvalue : item.value? = none)
    (hshared : item.head ∈ merged) : Underway all todo merged extra := by
  refine ⟨h.steady, h.added, fun other hother => ?_⟩
  rcases h.settled other hother with htodo | hsettled
  · rcases List.mem_cons.mp htodo with rfl | htodo
    · exact .inr ⟨List.mem_append_left _ hshared, by simp [hvalue]⟩
    · exact .inl htodo
  · exact .inr hsettled

/-- An item whose option is not there is added. If it has no value, what is left of the file gives
its option none. -/
theorem Underway.add (h : Underway all (item :: todo) merged extra) (hitem : item ∈ all)
    (hnew : item.head ∉ merged)
    (htodo : item.value? = none → ∀ other ∈ todo, other.head = item.head → other.value? = none) :
    Underway all todo merged (extra ++ item.tokens) := by
  have hadded : ∀ other ∈ all, ∀ value ∈ other.value?, other.head ∉ merged →
      other.head ∈ extra ++ item.tokens →
      behind (extra ++ item.tokens) other.head = some value := by
    intro other hother value hgiven hout hin
    by_cases hextra : other.head ∈ extra
    · exact behind_append (h.added other hother value hgiven hout hextra)
    · rw [behind_append_of_not_mem hextra]
      have htokens : other.head ∈ item.tokens := (List.mem_append.mp hin).resolve_left hextra
      cases hvalue : item.value? with
      | none =>
        -- An option that is added without a value gets none later in the file, so it is never given
        -- one.
        have hhead : other.head = item.head := by simpa [Item.tokens, hvalue] using htokens
        rcases h.settled other hother with hleft | hsettled
        · rcases List.mem_cons.mp hleft with rfl | hleft
          · simp [hvalue] at hgiven
          · simp [htodo hvalue other hleft hhead] at hgiven
        · exact absurd hsettled.1 (by simp [hout, hextra])
      | some written =>
        have hhead : other.head = item.head := by
          have hcases : other.head = item.head ∨ other.head = written := by
            simpa [Item.tokens, hvalue] using htokens
          refine hcases.elim id fun heq => ?_
          exact h.steady.valueApart item hitem written hvalue other hother
            (Option.isSome_of_mem hgiven) heq
        have heq := h.steady.oneValue other hother item hitem hhead value hgiven written hvalue
        simp [behind, Item.tokens, hvalue, hhead, heq]
  refine ⟨h.steady, hadded, fun other hother => ?_⟩
  rcases h.settled other hother with hleft | hsettled
  · rcases List.mem_cons.mp hleft with rfl | hleft
    · refine .inr ⟨by simp [Item.tokens], fun value hgiven => ?_⟩
      rw [behind_append_of_not_mem hnew]
      exact hadded other hother value hgiven hnew (by simp [Item.tokens])
    · exact .inl hleft
  · rw [← List.append_assoc]
    exact .inr (hsettled.append _)

/-- What writing the value of an item over a token of a steady target does to the other items. -/
theorem Steady.of_put (h : Steady all merged) (hitem : item ∈ all) {value : String}
    (hvalue : value ∈ item.value?) (hshared : item.head ∈ merged) :
    (∀ other ∈ all, other.head ∈ merged → other.head ∈ put merged item.head value) ∧
      ∀ other ∈ all, ∀ given ∈ other.value?, other.head ∈ put merged item.head value →
        other.head ∈ merged ∧
          (behind (put merged item.head value) other.head = some given ∨
            behind (put merged item.head value) other.head = behind merged other.head) := by
  obtain ⟨old, hold, hover⟩ := h.followed item hitem value hvalue hshared
  have hkept : ∀ other ∈ all, other.head = old → other.head = value := by
    rintro other hother rfl
    exact hover.resolve_right fun hout => hout (List.mem_map_of_mem hother)
  refine ⟨fun other hother hmem => mem_put hold hmem (hkept other hother), ?_⟩
  intro other hother given hgiven hmem
  by_cases hhead : other.head = item.head
  · rw [hhead, behind_put_self hold,
      h.oneValue item hitem other hother hhead.symm value hvalue given hgiven]
    exact ⟨hshared, .inl rfl⟩
  · have hapart : other.head ≠ value := fun heq =>
      hhead (h.valueApart item hitem value hvalue other hother (Option.isSome_of_mem hgiven) heq)
    have hout : other.head ≠ old := fun heq => hapart (hkept other hother heq)
    exact ⟨mem_of_mem_put hmem hapart, .inr (behind_put_of_ne hold hhead hout hapart)⟩

/-- An item with a value whose option is there has its value written over the old one. -/
theorem Underway.write (h : Underway all (item :: todo) merged extra)
    (hitem : item ∈ all) {value : String} (hvalue : value ∈ item.value?)
    (hshared : item.head ∈ merged) :
    Underway all todo (put merged item.head value) extra := by
  obtain ⟨hkept, hbehind⟩ := h.steady.of_put hitem hvalue hshared
  have hsteady : Steady all (put merged item.head value) := by
    refine ⟨h.steady.oneValue, h.steady.valueApart, fun other hother given hgiven hmem => ?_⟩
    obtain ⟨hold, hsame | hsame⟩ := hbehind other hother given hgiven hmem
    · exact ⟨given, hsame, .inl rfl⟩
    · rw [hsame]
      exact h.steady.followed other hother given hgiven hold
  have hadded : ∀ other ∈ all, ∀ given ∈ other.value?, other.head ∉ put merged item.head value →
      other.head ∈ extra → behind extra other.head = some given :=
        fun other hother given hgiven hout =>
    h.added other hother given hgiven (mt (hkept other hother) hout)
  refine ⟨hsteady, hadded, fun other hother => ?_⟩
  rcases h.settled other hother with hleft | ⟨hmem, hgivens⟩
  · rcases List.mem_cons.mp hleft with rfl | hleft
    · obtain ⟨old, hold, -⟩ := h.steady.followed other hother value hvalue hshared
      refine .inr ⟨List.mem_append_left _ (hkept other hother hshared), fun given hgiven => ?_⟩
      rw [h.steady.oneValue other hother other hother rfl given hgiven value hvalue]
      exact behind_append (behind_put_self hold)
    · exact .inl hleft
  -- What was settled in the target is not written over, what was settled in what is added stays
  -- there.
  · refine .inr ⟨?_, fun given hgiven => ?_⟩
    · exact List.mem_append.mpr ((List.mem_append.mp hmem).imp_left (hkept other hother))
    · by_cases hin : other.head ∈ put merged item.head value
      · obtain ⟨hold, hsame | hsame⟩ := hbehind other hother given hgiven hin
        · exact behind_append hsame
        · obtain ⟨old, hfollows, -⟩ := h.steady.followed other hother given hgiven hold
          have heq : some old = some given :=
            (behind_append hfollows).symm.trans (hgivens given hgiven)
          exact behind_append (hsame.trans (hfollows.trans heq))
      · have hextra : other.head ∈ extra :=
          (List.mem_append.mp hmem).resolve_left (mt (hkept other hother) hin)
        rw [behind_append_of_not_mem hin]
        exact hadded other hother given hgiven hin hextra

/-- Where the target is steady, all items of the file are settled in the end. The induction is on
the file, with what was looked at before in the invariant. -/
theorem Underway.finish {file : List String}
    (h : Underway all (items stripDoubleDash file) merged extra)
    (hitems : items stripDoubleDash file ⊆ all) :
    Underway all [] (update stripDoubleDash merged file).1
      (extra ++ (update stripDoubleDash merged file).2) := by
  fun_induction update stripDoubleDash merged file generalizing extra with
  | case1 merged =>
    rw [List.append_nil]
    exact h
  | case2 merged token =>
    split
    · rename_i hshared
      rw [List.append_nil]
      exact h.pass rfl hshared
    · rename_i hnew
      exact h.add (hitems List.mem_cons_self) hnew (by simp)
  | case3 merged token value rest hshared place hwritten =>
    rename_i ih
    rw [items, if_pos hwritten.1] at h hitems
    obtain ⟨hitem, hrest⟩ := List.cons_subset.mp hitems
    exact ih (h.write hitem rfl hshared) hrest
  | case4 merged token value rest hshared place hkept =>
    rename_i ih
    rw [items] at h hitems
    split at h
    · rename_i htakes
      rw [if_pos htakes] at hitems
      -- In a steady target something stands behind the option, so there was a place to write to.
      obtain ⟨old, hold, -⟩ := h.steady.followed _ (List.cons_subset.mp hitems).1 value rfl hshared
      exact absurd ⟨htakes, (List.getElem?_eq_some_iff.mp hold).1⟩ hkept
    · rename_i hsingle
      rw [if_neg hsingle] at hitems
      exact ih (h.pass rfl hshared) (List.cons_subset.mp hitems).2
  | case5 merged token value rest hnew htakes later more hupdate ih =>
    rw [items, if_pos htakes] at h hitems
    obtain ⟨hitem, hrest⟩ := List.cons_subset.mp hitems
    have hdone := ih (h.add hitem hnew fun hnone => absurd hnone (Option.some_ne_none value)) hrest
    rw [hupdate] at hdone
    simpa [Item.tokens] using hdone
  | case6 merged token value rest hnew htakes later more hupdate ih =>
    rw [items, if_neg htakes] at h hitems
    obtain ⟨hitem, hrest⟩ := List.cons_subset.mp hitems
    -- Whether an option takes a value is up to the option, so no later item gives this one any.
    have hnone : ∀ other ∈ items stripDoubleDash (value :: rest), other.head = token →
        other.value? = none := by
      rintro other hother rfl
      by_contra hsome
      exact htakes (takesValue_of_mem_items hother (Option.isSome_iff_ne_none.mpr hsome))
    have hdone := ih (h.add hitem hnew fun _ => hnone) hrest
    rw [hupdate] at hdone
    simpa [Item.tokens] using hdone

end Underway

/-! ## Merging again -/

/-- Where the target is steady for the options of a file, merging these a second time changes
nothing. -/
theorem merge_merge {target file : List String} (h : Steady (items stripDoubleDash file) target) :
    merge stripDoubleDash (merge stripDoubleDash target file) file =
      merge stripDoubleDash target file := by
  have hstart : Underway (items stripDoubleDash file) (items stripDoubleDash file) target [] :=
    ⟨h, fun _ _ _ _ _ hmem => absurd hmem List.not_mem_nil, fun item hitem => .inl hitem⟩
  have hdone := hstart.finish (List.Subset.refl _)
  rw [List.nil_append] at hdone
  have hsettled : update stripDoubleDash (merge stripDoubleDash target file) file =
      (merge stripDoubleDash target file, []) :=
    update_of_settled fun item hitem => (hdone.settled item hitem).resolve_left List.not_mem_nil
  rw [merge.eq_1 stripDoubleDash (merge stripDoubleDash target file), hsettled]
  exact List.append_nil _

/-- A name that is given again stays as it is. -/
theorem merge_merge_nameAndRoot :
    Steady (items true ["--name", "bar", "--root", "/r"])
      ["-o", "9", "--name", "foo", "--verbose"] ∧
      merge true
        (merge true ["-o", "9", "--name", "foo", "--verbose"] ["--name", "bar", "--root", "/r"])
          ["--name", "bar", "--root", "/r"] =
        ["-o", "9", "--name", "bar", "--verbose", "--root", "/r"] := by
  have hsteady : Steady (items true ["--name", "bar", "--root", "/r"])
      ["-o", "9", "--name", "foo", "--verbose"] := ⟨by decide, by decide, by decide⟩
  exact ⟨hsteady, (merge_merge hsteady).trans (by decide)⟩

/-- An option that a file gives two values gets the second one in the place of the first when the
file is merged again. -/
theorem merge_merge_ne :
    merge true (merge true [] ["--name", "a", "--name", "b"]) ["--name", "a", "--name", "b"] ≠
      merge true [] ["--name", "a", "--name", "b"] := by
  decide

end Autogen.Options
