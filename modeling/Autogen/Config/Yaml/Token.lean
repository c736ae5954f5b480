import Autogen.Config.Yaml.Excerpt
import Autogen.Config.Yaml.Scalar

/-!
# Tokens of a YAML text

A text as a sequence of scalars and marks of structure. In a block the structure is shown by
indentation: a mapping or a sequence begins where a line is indented further than the collection
around it, and ends where one is indented less. What a scalar is the key of shows only at the colon
after it, so the mark of the key is put in front of it later.

## Main definitions

* `Yaml.Token` — scalars and marks of structure, and the fault at which a text breaks off.
* `Yaml.Scanner` — the tokens of the part of a text that has been gone through.
* `Yaml.Token.ofExcerpt` — the tokens of a text, as far as it can be read.
-/

namespace Autogen.Yaml

open Decode

/-- A scalar, a mark of structure, or the fault because of which no more tokens follow. -/
inductive Token where
  | scalar (text : String) (plain : Bool)
  | sequenceStart
  | mappingStart
  | blockEnd
  | flowSequenceStart
  | flowSequenceEnd
  | flowMappingStart
  | flowMappingEnd
  | dash
  | comma
  | key
  | value
  | documentStart
  | documentEnd
  | broken (fault : DecodeFault)
deriving DecidableEq, Repr

/-- A place at which a key may have begun: the number of tokens in front of it, and whether there
has to be a key. -/
structure Candidate where
  position : Nat
  required : Bool
  place : Cursor

/-- The state in the middle of a text. The tokens are in reverse order. The columns of the blocks
that are open and the candidates of the flow collections that are open come innermost first; the
last of the candidates is the one of the block. The `ending` is the fault that shows behind the
characters, if they are not the whole text. -/
structure Scanner where
  cursor : Cursor
  ending : Option DecodeFault := none
  tokens : List Token := []
  indents : List Nat := []
  keyAllowed : Bool := true
  candidates : List (Option Candidate) := [none]

namespace Scanner

/-- The number of characters in which a key has to be complete. -/
def keyLimit : Nat := 1024

/-- Whether a flow collection is open. -/
def inFlow (s : Scanner) : Bool :=
  1 < s.candidates.length

/-- Adds a token. -/
def push (s : Scanner) (t : Token) : Scanner :=
  { s with tokens := t :: s.tokens }

/-- Adds a token for the next characters. -/
def take (s : Scanner) (count : Nat) (t : Token) : Scanner :=
  { s.push t with cursor := s.cursor.skip count }

/-- Adds a token behind the given number of tokens. -/
def insertAt (s : Scanner) (position : Nat) (t : Token) : Scanner :=
  let later := s.tokens.length - position
  { s with tokens := s.tokens.take later ++ t :: s.tokens.drop later }

/-- Closes the blocks that are indented further than a column. -/
def closeBlocks (s : Scanner) (deeper : Nat → Bool) : Scanner :=
  if s.inFlow then s
  else
    { s with
      tokens := (s.indents.takeWhile deeper).map (fun _ => Token.blockEnd) ++ s.tokens
      indents := s.indents.dropWhile deeper }

/-- Opens a block at a column that is indented further than the block around it; its token goes
behind the given number of tokens. -/
def openBlock (s : Scanner) (column position : Nat) (t : Token) : Scanner :=
  if !s.inFlow && s.indents.head?.all (· < column) then
    { s.insertAt position t with indents := column :: s.indents }
  else s

/-- Drops the candidate of the innermost collection, of which no key came. -/
def dropCandidate (s : Scanner) : Except DecodeFault Scanner :=
  match s.candidates with
  | some candidate :: rest =>
    if candidate.required then malformed else .ok { s with candidates := none :: rest }
  | _ => .ok s

/-- Notes that a key may begin here. There has to be one at the column of the block. -/
def addCandidate (s : Scanner) : Except DecodeFault Scanner :=
  if s.keyAllowed then do
    let s ← s.dropCandidate
    let candidate := ⟨s.tokens.length, !s.inFlow && s.indents.head? == some s.cursor.column,
      s.cursor⟩
    return { s with candidates := some candidate :: s.candidates.drop 1 }
  else .ok s

/-- Whether a key that began at a candidate could not end here any more. -/
def isStale (s : Scanner) (c : Candidate) : Bool :=
  c.place.line != s.cursor.line || keyLimit < s.cursor.index - c.place.index

/-- Drops the candidates of keys that could not end here. -/
def dropStale (s : Scanner) : Except DecodeFault Scanner :=
  if s.candidates.any (·.any fun c => s.isStale c && c.required) then malformed
  else .ok { s with candidates := s.candidates.map (·.filter fun c => !s.isStale c) }

/-- Goes past white space and comments. In a block, a key may begin on every line. The first
argument bounds the number of lines. -/
def skipSpace : Nat → Scanner → Scanner
  | 0, s => s
  | count + 1, s =>
    let p := s.cursor.skipWhile (· == ' ')
    let p := if p.rest.head? == some '#' then p.skipWhile (fun c => !isBreak c) else p
    if p.atBreak then
      skipSpace count { s with cursor := p.step, keyAllowed := s.keyAllowed || !s.inFlow }
    else { s with cursor := p }

/-- The mark of a document. -/
def document (s : Scanner) (t : Token) : Except DecodeFault Scanner := do
  let s ← (s.closeBlocks fun _ => true).dropCandidate
  return { s.take 3 t with keyAllowed := false }

/-- The start of a flow collection. -/
def flowStart (s : Scanner) (t : Token) : Except DecodeFault Scanner := do
  let s ← s.addCandidate
  return { s.take 1 t with keyAllowed := true, candidates := none :: s.candidates }

/-- The end of a flow collection. -/
def flowEnd (s : Scanner) (t : Token) : Except DecodeFault Scanner :=
  if s.inFlow then do
    let s ← s.dropCandidate
    return { s.take 1 t with keyAllowed := false, candidates := s.candidates.drop 1 }
  else malformed

/-- The comma between the entries of a flow collection. -/
def comma (s : Scanner) : Except DecodeFault Scanner := do
  let s ← s.dropCandidate
  return { s.take 1 .comma with keyAllowed := true }

/-- The dash of an entry of a block sequence. -/
def dash (s : Scanner) : Except DecodeFault Scanner :=
  if !s.inFlow && !s.keyAllowed then malformed
  else do
    let s := s.openBlock s.cursor.column s.tokens.length .sequenceStart
    let s ← s.dropCandidate
    return { s.take 1 .dash with keyAllowed := true }

/-- The mark of a key. -/
def key (s : Scanner) : Except DecodeFault Scanner :=
  if !s.inFlow && !s.keyAllowed then malformed
  else do
    let s := s.openBlock s.cursor.column s.tokens.length .mappingStart
    let s ← s.dropCandidate
    return { s.take 1 .key with keyAllowed := !s.inFlow }

/-- The colon of a value. What began at the candidate has become a key, with which a block mapping
may begin. -/
def value (s : Scanner) : Except DecodeFault Scanner :=
  match s.candidates with
  | some c :: rest =>
    let s := s.insertAt c.position .key
    let s := s.openBlock c.place.column c.position .mappingStart
    .ok { s.take 1 .value with keyAllowed := false, candidates := none :: rest }
  | _ =>
    if !s.inFlow && !s.keyAllowed then malformed
    else do
      let s := s.openBlock s.cursor.column s.tokens.length .mappingStart
      let s ← s.dropCandidate
      return { s.take 1 .value with keyAllowed := !s.inFlow }

/-- A quoted scalar. -/
def quoted (s : Scanner) (double : Bool) : Except DecodeFault Scanner := do
  let s ← s.addCandidate
  let p := s.cursor.step
  let (codes, after) ← readQuoted double (p.rest.length + 1) p
  return { s.push (.scalar (Text.ofCodePoints codes) false) with
    cursor := after, keyAllowed := false }

/-- A plain scalar. -/
def plain (s : Scanner) : Except DecodeFault Scanner := do
  let s ← s.addCandidate
  let indent := (s.indents.head?.map (· + 1)).getD 0
  let (chars, fresh, after) := readPlain s.inFlow indent s.cursor.rest.length false s.cursor
  return { s.push (.scalar (Text.ofChars chars) true) with cursor := after, keyAllowed := fresh }

/-- The characters that do not begin a plain scalar. -/
def indicators : List Char :=
  ['-', '?', ':', ',', '[', ']', '{', '}', '#', '&', '*', '!', '|', '>', '\'', '"', '%', '@',
    '\u0060']

/-- Whether a plain scalar begins with the next character. -/
def startsPlain (s : Scanner) (c : Char) (rest : List Char) : Bool :=
  (!indicators.contains c && !isBlank c) ||
    (!atSeparator rest && (c == '-' || (!s.inFlow && (c == '?' || c == ':'))))

/-- Takes the token that begins with the next character. -/
def takeToken (s : Scanner) (c : Char) (rest : List Char) : Except DecodeFault Scanner :=
  if s.cursor.startsWith Cursor.startMark then s.document .documentStart
  else if s.cursor.startsWith Cursor.endMark then s.document .documentEnd
  else if c == '[' then s.flowStart .flowSequenceStart
  else if c == '{' then s.flowStart .flowMappingStart
  else if c == ']' then s.flowEnd .flowSequenceEnd
  else if c == '}' then s.flowEnd .flowMappingEnd
  else if c == ',' then s.comma
  else if c == '-' && atSeparator rest then s.dash
  else if c == '?' && (s.inFlow || atSeparator rest) then s.key
  else if c == ':' && (s.inFlow || atSeparator rest) then s.value
  else if c == '\'' then s.quoted false
  else if c == '"' then s.quoted true
  else if s.startsPlain c rest then s.plain
  else malformed

/-- Accepts that the characters are at their end, behind which a fault may show. -/
def checkEnd (s : Scanner) : Except DecodeFault Unit :=
  match s.cursor.rest, s.ending with
  | [], some fault => .error fault
  | _, _ => .ok ()

/-- Takes the next token. At the end of the text there is none; what is open is closed instead, and
the text has been gone through. -/
def advance (s : Scanner) : Except DecodeFault (Scanner × Bool) := do
  let s := skipSpace (s.cursor.rest.length + 1) s
  s.checkEnd
  let s ← s.dropStale
  match s.cursor.rest with
  | [] => return (← (s.closeBlocks fun _ => true).dropCandidate, true)
  | c :: rest =>
    let s ← (s.closeBlocks (s.cursor.column < ·)).takeToken c rest
    s.checkEnd
    return (s, false)

/-- The number of tokens in front of which no mark of a key can come any more. -/
def settled (s : Scanner) : Nat :=
  s.candidates.foldl (fun count candidate =>
    match candidate with
    | some c => if s.isStale c then count else min count c.position
    | none => count) s.tokens.length

/-- The tokens of a text that breaks off with a fault behind those that have been taken. The ones
that are not settled are never looked at. -/
def brokenOff (s : Scanner) (fault : DecodeFault) : List Token :=
  s.tokens.reverse.take s.settled ++ [.broken fault]

/-- Goes through the rest of a text, at most as many tokens as given. -/
def run : Nat → Scanner → List Token
  | 0, s => s.brokenOff .malformed
  | count + 1, s =>
    match s.advance with
    | .error .incomplete => s.brokenOff (s.ending.getD .malformed)
    | .error fault => s.brokenOff fault
    | .ok (s, true) => s.tokens.reverse
    | .ok (s, false) => run count s

end Scanner

/-- The tokens of a text, as far as it can be read; a byte order mark in front does not belong to
it. -/
def Token.ofExcerpt (text : Excerpt) : List Token :=
  let cs := match text.chars with
    | '\ufeff' :: rest => rest
    | cs => cs
  Scanner.run (cs.length + 1) { cursor := { rest := cs }, ending := text.fault }

end Autogen.Yaml
