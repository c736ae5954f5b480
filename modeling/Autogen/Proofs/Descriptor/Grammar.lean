import Autogen.Proofs.Descriptor.Declarations
import Mathlib.Data.List.Forall2
import Mathlib.Data.List.TakeWhile

/-!
# The grammar of a descriptor

Which texts are read as descriptors, told by what their lines look like. The reader goes through a
line from the left and never looks back; the grammar says what the line is made of.

## Main definitions

* `IsBody` — what can stand between the quotes of a declaration.
* `Says`, `IsLine` — what a line says, and the lines that say something or nothing.
* `FollowsGrammar` — what reading a text comes to.

## Main statements

* `takeBody_eq_some`, `readDeclaration_eq_some` — the reader finds exactly what the grammar allows.
* `readLine_ne_malformed_iff`, `parseLines_eq_error` — the lines that are refused, and the first one
  of them.
* `parse_eq_ok`, `parse_eq_error` — the texts that are read, and where the others are refused.
* `follows_grammar` — every text is read as the grammar says.
* `get?_of_parse_format` — entries are read although what follows them has keys that are no keys.
-/

namespace Autogen

theorem OrderedMap.ofList_toList {κ α : Type} [DecidableEq κ] (m : OrderedMap κ α) :
    ofList m.toList = m :=
  OrderedMap.ext (toList_ofList m.nodup_keys)

namespace Descriptor

/-! ## Lines -/

/-- What can stand between quotes: characters other than quotes and backslashes, and backslashes,
each of them with the character behind it. -/
inductive IsBody : List Char → Prop
  | nil : IsBody []
  | plain {c : Char} {rest : List Char} (hquote : c ≠ '"') (hback : c ≠ '\\') (h : IsBody rest) :
      IsBody (c :: rest)
  | escaped (c : Char) {rest : List Char} (h : IsBody rest) : IsBody ('\\' :: c :: rest)

/-- What a line without white space at its ends says: nothing, if it is empty or a comment, or the
entry that it declares. -/
inductive Says : List Char → Option Entry → Prop
  | empty : Says [] none
  | comment (rest : List Char) : Says ('#' :: rest) none
  | declaration {key : String} {body : List Char} (hkey : IsKey key) (hbody : IsBody body) :
      Says ("set(".toList ++ (key.toList ++ (" \"".toList ++ (body ++ "\")".toList))))
        (some (key, .ofList (unescapeChars body)))

/-- The lines of a descriptor. -/
def IsLine (line : String) : Prop :=
  ∃ entry, Says (Text.stripChars line.toList) entry

/-- The quote that ends a body is the first one without a backslash of its own. -/
theorem takeBody_eq_some {cs body after : List Char} :
    takeBody cs = some (body, after) ↔ IsBody body ∧ cs = body ++ '"' :: after := by
  constructor
  · intro h
    fun_induction takeBody cs generalizing body with
    | case1 => cases h
    | case2 => cases h
    | case3 rest =>
      cases h
      exact ⟨.nil, rfl⟩
    | case4 c rest ih =>
      obtain ⟨⟨inner, _⟩, hrest, heq⟩ := Option.map_eq_some_iff.mp h
      cases heq
      obtain ⟨hbody, rfl⟩ := ih hrest
      exact ⟨.escaped c hbody, rfl⟩
    | case5 c rest hlast hquote hback ih =>
      -- The backslash has been dealt with, whether it ends the text or stands before a character.
      have hplain : c ≠ '\\' := by
        rintro rfl
        cases rest with
        | nil => exact hlast rfl rfl
        | cons d rest => exact hback d rest rfl rfl
      obtain ⟨⟨inner, _⟩, hrest, heq⟩ := Option.map_eq_some_iff.mp h
      cases heq
      obtain ⟨hbody, rfl⟩ := ih hrest
      exact ⟨.plain hquote hplain hbody, rfl⟩
  · rintro ⟨hbody, rfl⟩
    induction hbody with
    | nil => rfl
    | @plain c rest hquote hback _ ih =>
      rw [List.cons_append, takeBody, ih, Option.map_some]
      all_goals simp_all
    | escaped c _ ih =>
      rw [List.cons_append, List.cons_append, takeBody, ih, Option.map_some]

theorem dropStart?_eq_some {start cs rest : List Char} :
    dropStart? start cs = some rest ↔ cs = start ++ rest := by
  constructor
  · intro h
    unfold dropStart? at h
    split at h
    · rename_i hprefix
      rw [List.isPrefixOf_iff_prefix] at hprefix
      obtain ⟨behind, rfl⟩ := hprefix
      rw [List.drop_left] at h
      exact congrArg _ (Option.some.inj h)
    · cases h
  · rintro rfl
    exact dropStart?_append start rest

/-- A declaration is taken apart in one way only. -/
theorem readDeclaration_eq_some {line body : List Char} {key : String} :
    readDeclaration line = some (key.toList, body) ↔ IsKey key ∧ IsBody body ∧
      line = "set(".toList ++ (key.toList ++ (" \"".toList ++ (body ++ "\")".toList))) := by
  constructor
  · intro h
    simp only [readDeclaration, Option.bind_eq_bind, Option.bind_eq_some_iff,
      dropStart?_eq_some] at h
    obtain ⟨rest, rfl, h⟩ := h
    split at h
    · cases h
    · rename_i hkey
      simp only [Option.bind_eq_some_iff, dropStart?_eq_some, Prod.exists, takeBody_eq_some] at h
      obtain ⟨behind, hbehind, inner, after, ⟨hbody, rfl⟩, h⟩ := h
      split at h
      · rename_i hafter
        -- What was read is put together again from the characters of the key and what stands behind
        -- them.
        obtain ⟨htake, rfl⟩ := Prod.mk.inj (Option.some.inj h)
        have hparts := List.takeWhile_append_dropWhile (p := isKeyChar) (l := rest)
        rw [htake, hbehind, hafter] at hparts
        refine ⟨⟨?_, ?_⟩, hbody, ?_⟩
        · simpa [htake] using hkey
        · rw [← htake]
          exact fun c hc => List.mem_takeWhile_imp hc
        · exact congrArg _ hparts.symm
      · cases h
  · rintro ⟨hkey, hbody, rfl⟩
    obtain ⟨htake, hdrop⟩ := takeWhile_key hkey (c := ' ') rfl ('"' :: (body ++ "\")".toList))
    have hspace :
        " \"".toList ++ (body ++ "\")".toList) = ' ' :: '"' :: (body ++ "\")".toList) := rfl
    have hempty : key.toList.isEmpty = false := by simpa using hkey.1
    have hread : takeBody (body ++ "\")".toList) = some (body, [')']) :=
      takeBody_eq_some.mpr ⟨hbody, rfl⟩
    rw [readDeclaration, dropStart?_append, Option.bind_eq_bind, Option.bind_some]
    simp only [hspace, htake, hdrop, hempty, Bool.false_eq_true, if_false]
    rw [← hspace, dropStart?_append, Option.bind_some, hread]
    rfl

/-- A line that is understood says what the grammar makes of it. -/
theorem says_readLine {line : String} (h : readLine line ≠ .malformed) :
    Says (Text.stripChars line.toList) (readLine line).declared? := by
  revert h
  unfold readLine
  generalize Text.stripChars line.toList = stripped
  simp only
  split
  · exact fun _ => .empty
  · exact fun _ => .comment _
  · split
    · rename_i key body hread
      intro _
      obtain ⟨key, rfl⟩ : ∃ text : String, text.toList = key := ⟨.ofList key, String.toList_ofList⟩
      obtain ⟨hkey, hbody, rfl⟩ := readDeclaration_eq_some.mp hread
      rw [String.ofList_toList]
      exact .declaration hkey hbody
    · exact fun h => absurd rfl h

/-- What the grammar makes of a line is understood. -/
theorem declared?_readLine {line : String} {entry : Option Entry}
    (h : Says (Text.stripChars line.toList) entry) :
    readLine line ≠ .malformed ∧ (readLine line).declared? = entry := by
  unfold readLine
  generalize Text.stripChars line.toList = stripped at h
  cases h with
  | empty => exact ⟨LineContent.noConfusion, rfl⟩
  | comment rest => exact ⟨LineContent.noConfusion, rfl⟩
  | @declaration key body hkey hbody =>
    have hread :
        readDeclaration
          ("set(".toList ++ (key.toList ++ (" \"".toList ++ (body ++ "\")".toList)))) =
        some (key.toList, body) :=
      readDeclaration_eq_some.mpr ⟨hkey, hbody, rfl⟩
    have hstart :
        ∃ rest, "set(".toList ++ (key.toList ++ (" \"".toList ++ (body ++ "\")".toList))) =
        's' :: rest := ⟨_, rfl⟩
    obtain ⟨rest, hrest⟩ := hstart
    rw [hrest] at hread ⊢
    simp [hread, LineContent.declared?]

theorem readLine_ne_malformed_iff {line : String} : readLine line ≠ .malformed ↔ IsLine line :=
  ⟨fun h => ⟨_, says_readLine h⟩, fun ⟨_, h⟩ => (declared?_readLine h).1⟩

/-- The keys that are declared are keys. -/
theorem isKey_of_mem_said {lines : List String} (h : ∀ line ∈ lines, IsLine line) {entry : Entry}
    (hentry : entry ∈ said lines) : IsKey entry.1 := by
  obtain ⟨line, hline, hdeclared⟩ := List.mem_filterMap.mp hentry
  have hsays := says_readLine (readLine_ne_malformed_iff.mpr (h line hline))
  rw [hdeclared] at hsays
  generalize Text.stripChars line.toList = stripped at hsays
  cases hsays with
  | declaration hkey _ => exact hkey

/-! ## Texts -/

/-- Lines are read to the end only if all of them are understood. -/
theorem readLine_ne_malformed_of_parseLines {lines : List String} {number : Nat}
    {values result : OrderedMap String String} (h : parseLines number values lines = .ok result) :
    ∀ line ∈ lines, readLine line ≠ .malformed := by
  fun_induction parseLines number values lines with
  | case1 => simp
  | case2 number values line rest hread ih => exact List.forall_mem_cons.mpr ⟨by simp [hread], ih h⟩
  | case3 number values line rest key value hread ih =>
      exact List.forall_mem_cons.mpr ⟨by simp [hread], ih h⟩
  | case4 => cases h

/-- The first line that is not understood is reported with its number; the lines in front of it are
understood. -/
theorem parseLines_eq_error {lines : List String} {number : Nat} {values : OrderedMap String String}
    {m : MalformedLine} : parseLines number values lines = .error m ↔
      ∃ before after, lines = before ++ m.line :: after ∧
        (∀ line ∈ before, readLine line ≠ .malformed) ∧
        readLine m.line = .malformed ∧ m.number = number + before.length := by
  constructor
  · intro h
    fun_induction parseLines number values lines with
    | case1 => cases h
    | case2 number values line rest hread ih =>
      obtain ⟨before, after, rfl, hbefore, hline, hnumber⟩ := ih h
      refine ⟨line :: before, after, rfl, ?_, hline, ?_⟩
      · exact List.forall_mem_cons.mpr ⟨by simp [hread], hbefore⟩
      · rw [hnumber, List.length_cons]
        omega
    | case3 number values line rest key value hread ih =>
      obtain ⟨before, after, rfl, hbefore, hline, hnumber⟩ := ih h
      refine ⟨line :: before, after, rfl, ?_, hline, ?_⟩
      · exact List.forall_mem_cons.mpr ⟨by simp [hread], hbefore⟩
      · rw [hnumber, List.length_cons]
        omega
    | case4 number values line rest hread =>
      cases h
      exact ⟨[], rest, rfl, by simp, hread, rfl⟩
  · rintro ⟨before, after, rfl, hbefore, hline, hnumber⟩
    induction before generalizing number values with
    | nil =>
      obtain ⟨_, line⟩ := m
      simp only [List.length_nil, Nat.add_zero] at hline hnumber
      rw [List.nil_append, parseLines, hline, hnumber]
    | cons line before ih =>
      rw [List.forall_mem_cons] at hbefore
      rw [List.length_cons] at hnumber
      rw [List.cons_append, parseLines]
      split
      · exact ih hbefore.2 (by omega)
      · exact ih hbefore.2 (by omega)
      · rename_i hread
        exact absurd hread hbefore.1

/-- What reading a text comes to. It succeeds if all lines are understood; otherwise the first line
that is not is reported, counted from one. A text that is read gives the values of its declarations,
and these are read again when they are written down under any title. -/
structure FollowsGrammar (text : String) : Prop where
  accepted : (∃ values, parse text = .ok values) ↔ ∀ line ∈ Text.splitOn "\n" text, IsLine line
  refused : ∀ m, parse text = .error m ↔ ∃ before after,
    Text.splitOn "\n" text = before ++ m.line :: after ∧
      (∀ line ∈ before, IsLine line) ∧ ¬IsLine m.line ∧ m.number = before.length + 1
  named : ∀ m, parse text = .error m →
    m.message = "Malformed descriptor line " ++ toString m.number ++ ": " ++ Text.quoted m.line
  decoded : ∀ values, parse text = .ok values → ∃ entries,
    List.Forall₂ (fun line entry => Says (Text.stripChars line.toList) entry)
      (Text.splitOn "\n" text) entries ∧
      values = .ofList (entries.filterMap id)
  stable : ∀ values, parse text = .ok values → ∀ title, '\n' ∉ title.toList →
    parse (format [⟨title, values.toList⟩]) = .ok values

theorem parse_eq_error {text : String} {m : MalformedLine} : parse text = .error m ↔ ∃ before after,
    Text.splitOn "\n" text = before ++ m.line :: after ∧
      (∀ line ∈ before, IsLine line) ∧ ¬IsLine m.line ∧ m.number = before.length + 1 := by
  rw [parse, parseLines_eq_error]
  simp only [← readLine_ne_malformed_iff, not_not, Nat.add_comm 1]

/-- A text is read exactly if each of its lines is understood. -/
theorem parse_eq_ok {text : String} {values : OrderedMap String String} : parse text = .ok values ↔
    (∀ line ∈ Text.splitOn "\n" text, IsLine line) ∧
    values = .ofList (said (Text.splitOn "\n" text)) := by
  have hread (h : ∀ line ∈ Text.splitOn "\n" text, IsLine line) :
      parse text = .ok (.ofList (said (Text.splitOn "\n" text))) :=
    parseLines_eq (fun line hline => readLine_ne_malformed_iff.mpr (h line hline)) 1 .empty
  constructor
  · intro hparse
    have hlines : ∀ line ∈ Text.splitOn "\n" text, IsLine line := fun line hline =>
      readLine_ne_malformed_iff.mp (readLine_ne_malformed_of_parseLines hparse line hline)
    rw [hread hlines] at hparse
    exact ⟨hlines, (Except.ok.inj hparse).symm⟩
  · intro ⟨hlines, hvalues⟩
    rw [hvalues]
    exact hread hlines

/-- What the lines of a text declare, each of them read by itself. -/
theorem forall₂_says {lines : List String} (h : ∀ line ∈ lines, IsLine line) :
    List.Forall₂ (fun line entry => Says (Text.stripChars line.toList) entry) lines
      (lines.map fun line => (readLine line).declared?) := by
  rw [List.forall₂_map_right_iff, List.forall₂_same]
  intro line hline
  exact says_readLine (readLine_ne_malformed_iff.mpr (h line hline))

/-- Values that were read are read again when they are written down. -/
theorem parse_format_of_parse {text : String} {values : OrderedMap String String}
    (h : parse text = .ok values) {title : String} (htitle : '\n' ∉ title.toList) :
    parse (format [⟨title, values.toList⟩]) = .ok values := by
  obtain ⟨hlines, hvalues⟩ := parse_eq_ok.mp h
  have hkeys : ∀ entry ∈ values.toList, IsKey entry.1 := by
    intro entry hentry
    have hkey : entry.1 ∈ values.keys := List.mem_map.mpr ⟨entry, hentry, rfl⟩
    rw [hvalues, OrderedMap.mem_keys_ofList] at hkey
    obtain ⟨other, hother, heq⟩ := List.mem_map.mp hkey
    exact heq ▸ isKey_of_mem_said hlines hother
  have hlegible : ∀ s ∈ [(⟨title, values.toList⟩ : Section)], s.Legible := by
    intro s hs
    obtain rfl := List.mem_singleton.mp hs
    exact ⟨htitle, hkeys⟩
  rw [parse_format hlegible, List.flatMap_singleton, OrderedMap.ofList_toList]

/-- Every text is read as the grammar says. -/
theorem follows_grammar (text : String) : FollowsGrammar text where
  accepted := by
    simp only [parse_eq_ok, exists_and_left, exists_eq, and_true]
  refused _ := parse_eq_error
  named _ _ := rfl
  decoded values hparse := by
    obtain ⟨hlines, hvalues⟩ := parse_eq_ok.mp hparse
    refine ⟨_, forall₂_says hlines, ?_⟩
    rw [hvalues, List.filterMap_map, said]
    rfl
  stable _ hparse _ htitle := parse_format_of_parse hparse htitle

-- A tabulator is written down as it is, and a semicolon without a backslash, but both can be read
-- with one.
example : parse "set(AM_X \"a\\tb\\;c\")\n" = .ok (.ofList [("AM_X", "a\tb;c")]) := by
  decide +kernel

/-! ## Keys that are no keys -/

/-- Where the line of an entry declares anything at all, the declared key begins as that of the
entry does as far as this has key characters. -/
theorem prefix_of_readLine {entry : Entry} {start key value : String}
    (h : readLine (declaration entry) = .entry key value) (hstart : start.toList <+: entry.1.toList)
    (hchars : ∀ c ∈ start.toList, isKeyChar c) : start.toList <+: key.toList := by
  have hread : readLine (declaration entry) ≠ .malformed := by simp [h]
  have hsays := says_readLine hread
  rw [h, stripChars_declaration] at hsays
  generalize hline : (declaration entry).toList = line at hsays
  cases hsays with
  | @declaration _ body hkey _ =>
    rw [toList_declaration] at hline
    have hkeys := List.append_cancel_left hline
    have hboth : start.toList <+: key.toList ++ (" \"".toList ++ (body ++ "\")".toList)) :=
      hkeys ▸ hstart.trans (List.prefix_append _ _)
    rcases List.prefix_or_prefix_of_prefix hboth (List.prefix_append key.toList _)
      with hle | ⟨more, hmore⟩
    · exact hle
    · rw [← hmore, List.prefix_append_right_inj] at hboth
      cases more with
      | nil => simp [← hmore]
      | cons c more =>
        -- What follows a key in a line is a blank, which is no key character.
        obtain ⟨rfl, -⟩ := List.cons_prefix_cons.mp hboth
        have hblank := hchars ' ' (hmore ▸ List.mem_append_right _ List.mem_cons_self)
        cases hblank

/-- What is read from two sections, the second one of which may have anything for keys, are the
entries of the first one, provided that the second one's keys begin in ways that none of theirs
does. -/
theorem get?_of_parse_format {first second : Section} {values : OrderedMap String String}
    (hfirst : first.Legible) (hnodup : (first.entries.map Prod.fst).Nodup)
    (hsecond : second.FreeOf '\n')
    (hapart : ∀ entry ∈ second.entries, ∃ start : String, start.toList <+: entry.1.toList ∧
      (∀ c ∈ start.toList, isKeyChar c) ∧ ∀ known ∈ first.entries, ¬start.toList <+: known.1.toList)
    (h : parse (format [first, second]) = .ok values) {key value : String}
    (hentry : (key, value) ∈ first.entries) : values.get? key = some value := by
  have hfree : ∀ s ∈ [first, second], s.FreeOf '\n' := by
    simpa using ⟨hfirst.freeOf, hsecond⟩
  have hnew : ∀ other ∈ said (second.entries.map declaration), other.1 ≠ key := by
    rintro other hother rfl
    obtain ⟨line, hline, hdeclared⟩ := List.mem_filterMap.mp hother
    obtain ⟨entry, hentry', rfl⟩ := List.mem_map.mp hline
    obtain ⟨start, hstart, hchars, hnone⟩ := hapart entry hentry'
    have hread : readLine (declaration entry) = .entry other.1 other.2 :=
      LineContent.declared?_eq_some.mp hdeclared
    exact hnone _ hentry (prefix_of_readLine hread hstart hchars)
  obtain ⟨-, hvalues⟩ := parse_eq_ok.mp h
  rw [said_format hfree, List.flatMap_cons, List.flatMap_singleton,
    said_declarations hfirst.keys] at hvalues
  rw [hvalues, OrderedMap.get?_ofList_append hnew, OrderedMap.get?_eq_some,
    OrderedMap.toList_ofList hnodup]
  exact hentry

end Descriptor

end Autogen
