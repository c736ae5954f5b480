import Autogen.Descriptor.Basic
import Autogen.Proofs.Text.Split

/-!
# Reading a descriptor back

The text of a descriptor says exactly the entries that it was made from, whatever their values are.

## Main definitions

* `IsKey` — the keys that a declaration can have.
* `said` — the entries that some lines declare.

## Main statements

* `unescapeChars_escapeChars` — what is put between quotes is got back.
* `readLine_declaration` — the line of an entry declares the entry.
* `parse_format` — the text of sections declares their entries in their order.
-/

namespace Autogen.Descriptor

/-! ## Escaping -/

/-- How a character is spelled between quotes: by itself, or as a backslash with a mark. -/
theorem escapeChar_cases (c : Char) :
    (escapeChar c = [c] ∧ c ≠ '\\' ∧ c ≠ '"' ∧ c ≠ '\n' ∧ c ≠ '\r') ∨
      ∃ mark, escapeChar c = ['\\', mark] ∧ mark ≠ '\n' ∧ mark ≠ '\r' ∧ escapedChar mark = c := by
  unfold escapeChar
  split
  · rename_i h
    refine .inr ⟨c, rfl, ?_⟩
    rcases h with rfl | rfl | rfl <;> decide
  · rename_i h
    split
    · rename_i hn
      exact .inr ⟨'n', rfl, by decide, by decide, hn.symm⟩
    · split
      · rename_i hr
        exact .inr ⟨'r', rfl, by decide, by decide, hr.symm⟩
      · rename_i hn hr
        simp only [not_or] at h
        exact .inl ⟨rfl, h.1, h.2.1, hn, hr⟩

theorem escapeChars_cons (c : Char) (cs : List Char) :
    escapeChars (c :: cs) = escapeChar c ++ escapeChars cs := rfl

/-- What is put between quotes is got back. -/
theorem unescapeChars_escapeChars (cs : List Char) : unescapeChars (escapeChars cs) = cs := by
  induction cs with
  | nil => rfl
  | cons c cs ih =>
    rw [escapeChars_cons]
    rcases escapeChar_cases c with ⟨heq, hback, -⟩ | ⟨mark, heq, hline, -, hmark⟩
    · rw [heq, List.singleton_append, unescapeChars, ih]
      exact fun _ _ h => absurd h hback
    · rw [heq, List.cons_append, List.singleton_append, unescapeChars, if_neg hline, hmark, ih]

/-- The quote behind a text between quotes is found. -/
theorem takeBody_escapeChars (cs rest : List Char) :
    takeBody (escapeChars cs ++ '"' :: rest) = some (escapeChars cs, rest) := by
  induction cs with
  | nil => rfl
  | cons c cs ih =>
    rw [escapeChars_cons, List.append_assoc]
    rcases escapeChar_cases c with ⟨heq, hback, hquote, -⟩ | ⟨mark, heq, -⟩
    · rw [heq, List.singleton_append, takeBody, ih]
      · rfl
      · exact fun h => absurd h hback
      · exact hquote
      · exact fun _ _ h => absurd h hback
    · rw [heq, List.cons_append, List.singleton_append, takeBody, ih]
      rfl

theorem not_mem_escapeChars {c : Char} (hc : c = '\n' ∨ c = '\r') (cs : List Char) :
    c ∉ escapeChars cs := by
  intro hmem
  obtain ⟨d, -, hd⟩ := List.mem_flatMap.mp hmem
  rcases escapeChar_cases d with ⟨heq, -, -, hn, hr⟩ | ⟨mark, heq, hn, hr, -⟩
  · rw [heq, List.mem_singleton] at hd
    grind
  · rw [heq, List.mem_cons, List.mem_singleton] at hd
    rcases hc with rfl | rfl <;> grind

/-! ## Lines -/

/-- Key characters are neither blank nor control characters, and they are the same in every
encoding. -/
theorem bounds_of_isKeyChar {c : Char} (h : isKeyChar c = true) : '+' ≤ c ∧ c ≤ 'z' := by
  rcases isKeyChar_iff.mp h with ⟨hleast, hmost⟩ | ⟨hleast, hmost⟩ | ⟨hleast, hmost⟩ | hmem
  · exact ⟨Char.le_trans (by decide) hleast, Char.le_trans hmost (by decide)⟩
  · exact ⟨Char.le_trans (by decide) hleast, hmost⟩
  · exact ⟨Char.le_trans (by decide) hleast, Char.le_trans hmost (by decide)⟩
  · simp only [List.mem_cons, List.not_mem_nil, or_false] at hmem
    rcases hmem with rfl | rfl | rfl | rfl <;> decide

/-- The keys that a declaration can have. -/
def IsKey (key : String) : Prop :=
  key.toList ≠ [] ∧ ∀ c ∈ key.toList, isKeyChar c

-- Decided along the text: characters can be decided about all at once, and there are too many of
-- them.
instance (key : String) : Decidable (IsKey key) :=
  decidable_of_iff (key.toList ≠ [] ∧ key.toList.all isKeyChar = true)
    (by rw [IsKey, List.all_eq_true])

theorem toList_declaration (entry : Entry) :
    (declaration entry).toList = "set(".toList ++ (entry.1.toList ++
      (" \"".toList ++ (escapeChars entry.2.toList ++ '"' :: [')']))) := by
  simp [declaration, escape]

theorem dropStart?_append (start cs : List Char) : dropStart? start (start ++ cs) = some cs := by
  simp [dropStart?]

theorem takeWhile_key {key : String} (h : IsKey key) {c : Char} (hc : isKeyChar c = false)
    (rest : List Char) :
    (key.toList ++ c :: rest).takeWhile isKeyChar = key.toList ∧
      (key.toList ++ c :: rest).dropWhile isKeyChar = c :: rest := by
  rw [List.takeWhile_append_of_pos h.2, List.dropWhile_append_of_pos h.2]
  simp [hc]

theorem readDeclaration_declaration {entry : Entry} (h : IsKey entry.1) :
    readDeclaration (declaration entry).toList =
      some (entry.1.toList, escapeChars entry.2.toList) := by
  have hkey : entry.1.toList.isEmpty = false := by simpa using h.1
  have hspace : " \"".toList ++ (escapeChars entry.2.toList ++ '"' :: [')']) =
      ' ' :: '"' :: (escapeChars entry.2.toList ++ '"' :: [')']) := rfl
  obtain ⟨htake, hdrop⟩ := takeWhile_key h (c := ' ') rfl
    ('"' :: (escapeChars entry.2.toList ++ '"' :: [')']))
  rw [readDeclaration, toList_declaration, dropStart?_append, Option.bind_eq_bind, Option.bind_some]
  simp only [hspace, htake, hdrop, hkey, Bool.false_eq_true, if_false]
  rw [← hspace, dropStart?_append, Option.bind_some, takeBody_escapeChars]
  rfl

/-- White space at the ends is all that is taken away. -/
theorem stripChars_eq {cs : List Char} (hfirst : ∀ c, cs.head? = some c → Text.isBlank c = false)
    (hlast : ∀ c, cs.getLast? = some c → Text.isBlank c = false) : Text.stripChars cs = cs := by
  have hdrop {ds : List Char} (h : ∀ c, ds.head? = some c → Text.isBlank c = false) :
      ds.dropWhile Text.isBlank = ds := by
    cases ds with
    | nil => rfl
    | cons d ds => rw [List.dropWhile_cons, h d rfl]; rfl
  rw [Text.stripChars, hdrop hfirst, hdrop, List.reverse_reverse]
  intro c hc
  rw [List.head?_reverse] at hc
  exact hlast c hc

/-- The line of an entry has no white space at its ends, whatever its key is. -/
theorem stripChars_declaration (entry : Entry) :
    Text.stripChars (declaration entry).toList = (declaration entry).toList := by
  apply stripChars_eq
  · intro c hc
    rw [toList_declaration] at hc
    obtain rfl : 's' = c := Option.some.inj hc
    rfl
  · intro c hc
    simp only [toList_declaration, ← List.append_assoc, List.getLast?_append] at hc
    obtain rfl : ')' = c := by simpa using hc
    rfl

/-- The line of an entry declares the entry. -/
theorem readLine_declaration {entry : Entry} (h : IsKey entry.1) :
    readLine (declaration entry) = .entry entry.1 entry.2 := by
  have hread := readDeclaration_declaration h
  have hstart : ∃ rest, (declaration entry).toList = 's' :: rest := ⟨_, toList_declaration entry⟩
  obtain ⟨rest, hrest⟩ := hstart
  rw [readLine, stripChars_declaration]
  rw [hrest] at hread ⊢
  simp [hread, unescapeChars_escapeChars]

/-- A first character that is not white space stays the first one. -/
theorem stripChars_cons {c : Char} (hc : Text.isBlank c = false) (cs : List Char) :
    ∃ ds, Text.stripChars (c :: cs) = c :: ds := by
  rw [Text.stripChars, List.dropWhile_cons_of_neg (by simp [hc]), List.reverse_cons,
    List.dropWhile_append]
  split
  · exact ⟨[], by simp [hc]⟩
  · exact ⟨(cs.reverse.dropWhile Text.isBlank).reverse, by simp⟩

/-- A comment says nothing. -/
theorem readLine_comment (title : String) : readLine ("# " ++ title) = .nothing := by
  have hchars : ("# " ++ title).toList = '#' :: ' ' :: title.toList := by simp
  obtain ⟨ds, hds⟩ := stripChars_cons (c := '#') rfl (' ' :: title.toList)
  rw [readLine, hchars, hds]
  rfl

theorem readLine_empty : readLine "" = .nothing := rfl

/-! ## Texts -/

/-- What a line declares. -/
def LineContent.declared? : LineContent → Option Entry
  | .entry key value => some (key, value)
  | _ => none

theorem LineContent.declared?_eq_some {content : LineContent} {entry : Entry} :
    content.declared? = some entry ↔ content = .entry entry.1 entry.2 := by
  cases content <;> simp [declared?, Prod.ext_iff]

/-- The entries that some lines declare. -/
def said (lines : List String) : List Entry :=
  lines.filterMap fun line => (readLine line).declared?

/-- Lines that are all understood give the values of their declarations. -/
theorem parseLines_eq {lines : List String} (h : ∀ line ∈ lines, readLine line ≠ .malformed)
    (number : Nat) (values : OrderedMap String String) :
    parseLines number values lines =
      .ok ((said lines).foldl (fun m entry => m.insert entry.1 entry.2) values) := by
  induction lines generalizing number values with
  | nil => rfl
  | cons line rest ih =>
    have hrest := ih fun l hl => h l (List.mem_cons_of_mem _ hl)
    have hline := h line List.mem_cons_self
    rw [parseLines, said, List.filterMap_cons]
    cases hread : readLine line with
    | nothing => exact hrest (number + 1) values
    | entry key value => exact hrest (number + 1) (values.insert key value)
    | malformed => exact absurd hread hline

/-- A section whose text can be read: its title is on one line, and its entries have keys. -/
structure Section.Legible (s : Section) : Prop where
  title : '\n' ∉ s.title.toList
  keys : ∀ entry ∈ s.entries, IsKey entry.1

/-- A section that can be written down: in a file, a carriage return in a title would end the
line. -/
structure Section.Writable (s : Section) : Prop where
  title : ∀ c ∈ s.title.toList, c ≠ '\n' ∧ c ≠ '\r'
  keys : ∀ entry ∈ s.entries, IsKey entry.1

theorem Section.Writable.legible {s : Section} (h : s.Writable) : s.Legible :=
  ⟨fun hmem => (h.title _ hmem).1 rfl, h.keys⟩

/-- A section in whose title and keys a character does not occur. -/
structure Section.FreeOf (c : Char) (s : Section) : Prop where
  title : c ∉ s.title.toList
  keys : ∀ entry ∈ s.entries, c ∉ entry.1.toList

/-- A key has no line ends in it. -/
theorem IsKey.not_mem {key : String} (h : IsKey key) {c : Char} (hc : c = '\n' ∨ c = '\r') :
    c ∉ key.toList := by
  intro hmem
  obtain ⟨hleast, -⟩ := bounds_of_isKeyChar (h.2 c hmem)
  rcases hc with rfl | rfl <;> exact absurd hleast (by decide)

theorem Section.Legible.freeOf {s : Section} (h : s.Legible) : s.FreeOf '\n' :=
  ⟨h.title, fun entry hentry => (h.keys entry hentry).not_mem (.inl rfl)⟩

theorem Section.Writable.freeOf {s : Section} (h : s.Writable) : s.FreeOf '\r' :=
  ⟨fun hmem => (h.title _ hmem).2 rfl, fun entry hentry => (h.keys entry hentry).not_mem (.inr rfl)⟩

theorem not_mem_declaration {entry : Entry} {c : Char} (hc : c = '\n' ∨ c = '\r')
    (hkey : c ∉ entry.1.toList) : c ∉ (declaration entry).toList := by
  have hvalue := not_mem_escapeChars hc entry.2.toList
  rw [toList_declaration]
  rcases hc with rfl | rfl <;> simp [hkey, hvalue]

theorem said_append (ls ms : List String) : said (ls ++ ms) = said ls ++ said ms :=
  List.filterMap_append

theorem said_declarations {entries : List Entry} (h : ∀ entry ∈ entries, IsKey entry.1) :
    said (entries.map declaration) = entries := by
  rw [said, List.filterMap_map]
  refine (List.filterMap_congr fun entry hentry => ?_).trans List.filterMap_some
  rw [Function.comp, readLine_declaration (h entry hentry)]
  rfl

theorem said_section (s : Section) : said s.lines = said (s.entries.map declaration) := by
  rw [Section.lines, said, List.filterMap_cons, readLine_comment]
  rfl

theorem said_intercalate (ls : List (List String)) :
    said ([""].intercalate ls) = ls.flatMap said := by
  induction ls with
  | nil => rfl
  | cons part rest ih =>
    cases rest with
    | nil => simp
    | cons next rest =>
      rw [List.intercalate_cons_cons, said_append, said_append, ih, List.flatMap_cons]
      exact congrArg (· ++ (next :: rest).flatMap said) (List.append_nil _)

/-- A line of sections is an empty one, a title or a declaration. -/
theorem mem_lines {sections : List Section} {line : String} (h : line ∈ lines sections) :
    line = "" ∨ ∃ s ∈ sections, line = "# " ++ s.title ∨ ∃ entry ∈ s.entries, line =
      declaration entry := by
  rcases Text.mem_intercalate h with heq | ⟨part, hpart, hline⟩
  · exact .inl (List.mem_singleton.mp heq)
  · obtain ⟨s, hs, rfl⟩ := List.mem_map.mp hpart
    refine .inr ⟨s, List.mem_of_mem_filter hs, ?_⟩
    rcases List.mem_cons.mp hline with heq | hline
    · exact .inl heq
    · obtain ⟨entry, hentry, heq⟩ := List.mem_map.mp hline
      exact .inr ⟨entry, hentry, heq.symm⟩

/-- The lines of sections say what the lines of their entries say. -/
theorem said_lines (sections : List Section) :
    said (lines sections) = sections.flatMap fun s => said (s.entries.map declaration) := by
  rw [lines, said_intercalate, List.flatMap_map]
  induction sections with
  | nil => rfl
  | cons s rest ih =>
    rw [List.filter_cons, List.flatMap_cons, ← ih]
    cases hempty : s.entries.isEmpty with
    | true =>
      rw [List.isEmpty_iff.mp hempty]
      rfl
    | false =>
      rw [Bool.not_false, if_pos rfl, List.flatMap_cons, said_section]

theorem readLine_ne_malformed {sections : List Section} (h : ∀ s ∈ sections, s.Legible)
    {line : String} (hline : line ∈ lines sections) : readLine line ≠ .malformed := by
  rcases mem_lines hline with rfl | ⟨s, hs, rfl | ⟨entry, hentry, rfl⟩⟩
  · simp [readLine_empty]
  · simp [readLine_comment]
  · simp [readLine_declaration ((h s hs).keys entry hentry)]

/-- The lines of sections hold no line ends but those of titles and keys. -/
theorem not_mem_lines {sections : List Section} {c : Char} (hc : c = '\n' ∨ c = '\r')
    (h : ∀ s ∈ sections, s.FreeOf c) {line : String} (hline : line ∈ lines sections) :
    c ∉ line.toList := by
  rcases mem_lines hline with rfl | ⟨s, hs, rfl | ⟨entry, hentry, rfl⟩⟩
  · simp
  · have htitle := (h s hs).title
    rcases hc with rfl | rfl <;> simpa using htitle
  · exact not_mem_declaration hc ((h s hs).keys entry hentry)

theorem mem_format {sections : List Section} {c : Char} (h : c ∈ (format sections).toList) :
    c = '\n' ∨ ∃ line ∈ lines sections, c ∈ line.toList := by
  rw [format, Text.join, String.toList_append, String.toList_intercalate, List.mem_append] at h
  rcases h with h | h
  · rcases Text.mem_intercalate h with heq | ⟨part, hpart, hc⟩
    · exact .inl (List.mem_singleton.mp heq)
    · obtain ⟨line, hline, rfl⟩ := List.mem_map.mp hpart
      exact .inr ⟨line, hline, hc⟩
  · exact .inl (List.mem_singleton.mp h)

/-- The lines of a text of sections end in line feeds. -/
theorem not_mem_format {sections : List Section} (h : ∀ s ∈ sections, s.FreeOf '\r') :
    '\r' ∉ (format sections).toList := by
  intro hmem
  rcases mem_format hmem with heq | ⟨line, hline, hmem⟩
  · exact absurd heq (by decide)
  · exact not_mem_lines (.inr rfl) h hline hmem

theorem splitOn_format {sections : List Section} (h : ∀ s ∈ sections, s.FreeOf '\n') :
    Text.splitOn "\n" (format sections) =
      (if lines sections = [] then [""] else lines sections) ++ [""] := by
  have hsep : "\n".toList = ['\n'] := rfl
  have hpart : Text.isHoldingPart '\n' = false := by decide
  have hline : ∀ line ∈ lines sections, '\n' ∉ line.toList := fun _ => not_mem_lines (.inl rfl) h
  have hjoin : Text.splitOn "\n" (Text.join "\n" (lines sections)) =
      if lines sections = [] then [""] else lines sections := by
    split
    · rename_i hnil
      rw [hnil]
      exact Text.splitOn_of_not_mem hsep hpart (by simp [Text.join])
    · rename_i hne
      exact Text.splitOn_join hsep hpart hne hline
  have hsplit := Text.splitOn_append hsep hpart (Text.join "\n" (lines sections)) ""
  rw [String.append_empty] at hsplit
  rw [format, hsplit, hjoin, Text.splitOn_of_not_mem hsep hpart (s := "") (by simp)]

theorem said_format {sections : List Section} (h : ∀ s ∈ sections, s.FreeOf '\n') :
    said (Text.splitOn "\n" (format sections)) = sections.flatMap fun s =>
      said (s.entries.map declaration) := by
  have hempty : said [""] = [] := rfl
  rw [splitOn_format h, said_append, hempty, List.append_nil, ← said_lines]
  split
  · rename_i hnil
    rw [hnil, hempty]
    rfl
  · rfl

/-- The text of sections declares their entries in their order. -/
theorem parse_format {sections : List Section} (h : ∀ s ∈ sections, s.Legible) :
    parse (format sections) = .ok (.ofList (sections.flatMap (·.entries))) := by
  have hfree : ∀ s ∈ sections, s.FreeOf '\n' := fun s hs => (h s hs).freeOf
  have hsaid : said (Text.splitOn "\n" (format sections)) = sections.flatMap (·.entries) := by
    rw [said_format hfree]
    exact List.flatMap_congr fun s hs => said_declarations (h s hs).keys
  have hread : ∀ line ∈ Text.splitOn "\n" (format sections), readLine line ≠ .malformed := by
    intro line hline
    rw [splitOn_format hfree] at hline
    have hcases : line = "" ∨ line ∈ lines sections := by
      split at hline <;> simp only [List.mem_append, List.mem_singleton] at hline <;> grind
    rcases hcases with rfl | hline
    · simp [readLine_empty]
    · exact readLine_ne_malformed h hline
  rw [parse, parseLines_eq hread, hsaid]
  rfl

end Autogen.Descriptor
