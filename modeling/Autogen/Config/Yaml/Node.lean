import Autogen.Config.Yaml.Token

/-!
# Parts of a YAML document

The tree that the tokens of a text write: block and flow collections and scalars, without anchors,
tags and block scalars.

## Main definitions

* `Yaml.Node` — a part of a document.
* `Yaml.Node.ofTokens?` — the document that some tokens write.
-/

namespace Autogen.Yaml

open Decode

/-- A part of a document. -/
inductive Node where
  | scalar (text : String) (plain : Bool)
  | sequence (items : List Node)
  | mapping (pairs : List (Node × Node))
deriving Inhabited

/-- What stands where nothing is written. -/
def Node.empty : Node :=
  .scalar "" true

/-- A reader of the start of a list of tokens. -/
abbrev TokenReader (α : Type) := List Token → Except DecodeFault (α × List Token)

/-- The fault of tokens that cannot go on as they do. Where the text breaks off, its own fault
counts. -/
def unexpected {α : Type} : List Token → Except DecodeFault α
  | .broken fault :: _ => .error fault
  | _ => malformed

/-- Reads a node unless one of the given tokens follows, in whose front nothing is written. -/
def readOptional (stops : List Token) (element : TokenReader Node) : TokenReader Node := fun ts =>
  if ts.head?.any stops.contains then .ok (Node.empty, ts) else element ts

/-- Reads a value with its mark, if there is one. -/
def readMapped (stops : List Token) (element : TokenReader Node) : TokenReader Node := fun ts =>
  match ts with
  | .value :: rest => readOptional stops element rest
  | _ => .ok (Node.empty, ts)

/-- Reads the entries of a block sequence, at most as many as given. -/
def readItems (element : TokenReader Node) : Nat → TokenReader (List Node)
  | 0 => fun _ => malformed
  | count + 1 => fun ts =>
    match ts with
    | .dash :: rest => do
      let (item, rest) ← readOptional [.dash, .blockEnd] element rest
      let (items, after) ← readItems element count rest
      return (item :: items, after)
    | .blockEnd :: after => .ok ([], after)
    | _ => unexpected ts

/-- Reads the entries of a sequence that is not indented further than the mapping around it, at
most as many as given. -/
def readLevelItems (element : TokenReader Node) : Nat → TokenReader (List Node)
  | 0 => fun _ => malformed
  | count + 1 => fun ts =>
    match ts with
    | .dash :: rest => do
      let (item, rest) ← readOptional [.dash, .key, .value, .blockEnd] element rest
      let (items, after) ← readLevelItems element count rest
      return (item :: items, after)
    | _ => .ok ([], ts)

/-- Reads the pairs of a block mapping, at most as many as given. -/
def readPairs (element : TokenReader Node) : Nat → TokenReader (List (Node × Node))
  | 0 => fun _ => malformed
  | count + 1 => fun ts =>
    match ts with
    | .key :: rest => do
      let (key, rest) ← readOptional [.key, .value, .blockEnd] element rest
      let (value, rest) ← readMapped [.key, .value, .blockEnd] element rest
      let (pairs, after) ← readPairs element count rest
      return ((key, value) :: pairs, after)
    | .blockEnd :: after => .ok ([], after)
    | _ => unexpected ts

/-- Reads a pair of a flow collection after the mark of its key. -/
def readFlowPair (element : TokenReader Node) (close : Token) : TokenReader (Node × Node) :=
  fun ts => do
    let (key, rest) ← readOptional [.value, .comma, close] element ts
    let (value, after) ← readMapped [.comma, close] element rest
    return ((key, value), after)

/-- Reads an entry of a flow sequence; a pair is a mapping of its own. -/
def readFlowItem (element : TokenReader Node) : TokenReader Node := fun ts =>
  match ts with
  | .key :: rest => do
    let (pair, after) ← readFlowPair element .flowSequenceEnd rest
    return (.mapping [pair], after)
  | _ => element ts

/-- Reads an entry of a flow mapping; what has no mark of a key has no value. -/
def readFlowEntry (element : TokenReader Node) : TokenReader (Node × Node) := fun ts =>
  match ts with
  | .key :: rest => readFlowPair element .flowMappingEnd rest
  | _ => do
    let (key, after) ← element ts
    return ((key, Node.empty), after)

/-- Reads the entries of a flow collection, at most as many as given. A comma may follow the last
one. -/
def readFlow {α : Type} (entry : TokenReader α) (close : Token) : Nat → TokenReader (List α)
  | 0 => fun _ => malformed
  | count + 1 => fun ts =>
    if ts.head? = some close then .ok ([], ts.tail)
    else do
      let (item, rest) ← entry ts
      match rest with
      | .comma :: rest =>
        let (items, after) ← readFlow entry close count rest
        return (item :: items, after)
      | t :: after => if t = close then return ([item], after) else unexpected rest
      | [] => unexpected rest

/-- Where a node stands: in a flow collection, in a block, or as a key or a value of a block
mapping, where the entries of a sequence need not be indented. -/
inductive Context where
  | flow
  | block
  | mapped
deriving DecidableEq, Repr

/-- How many nodes there may be from the root down to a scalar. -/
def nestingLimit : Nat := 491

/-- Reads a node in which nodes are nested at most as deep as given. -/
def readNode : Nat → Context → TokenReader Node
  | 0, _ => fun _ => .error .tooDeep
  | depth + 1, context => fun ts =>
    match ts with
    | .scalar text plain :: after => .ok (.scalar text plain, after)
    | .flowSequenceStart :: rest => do
      let (items, after) ←
        readFlow (readFlowItem (readNode depth .flow)) .flowSequenceEnd ts.length rest
      return (.sequence items, after)
    | .flowMappingStart :: rest => do
      let (pairs, after) ←
        readFlow (readFlowEntry (readNode depth .flow)) .flowMappingEnd ts.length rest
      return (.mapping pairs, after)
    | .dash :: _ =>
      if context = .mapped then do
        let (items, after) ← readLevelItems (readNode depth .block) (ts.length + 1) ts
        return (.sequence items, after)
      else unexpected ts
    | .sequenceStart :: rest =>
      if context = .flow then malformed
      else do
        let (items, after) ← readItems (readNode depth .block) ts.length rest
        return (.sequence items, after)
    | .mappingStart :: rest =>
      if context = .flow then malformed
      else do
        let (pairs, after) ← readPairs (readNode depth .mapped) ts.length rest
        return (.mapping pairs, after)
    | _ => unexpected ts

/-- Accepts that a document is over: nothing but marks of its end may follow. -/
def readEnd (node : Node) (ts : List Token) : Except DecodeFault (Option Node) :=
  match ts.dropWhile (· == .documentEnd) with
  | [] => .ok (some node)
  | rest => unexpected rest

/-- The document that some tokens write, which may be missing. There is one document at most. -/
def Node.ofTokens? (ts : List Token) : Except DecodeFault (Option Node) := do
  let element := readNode nestingLimit .block
  match ts with
  | [] => return none
  | .documentStart :: [] => return some Node.empty
  | .documentStart :: rest =>
    let (node, rest) ← readOptional [.documentStart, .documentEnd] element rest
    readEnd node rest
  | _ =>
    let (node, rest) ← element ts
    readEnd node rest

end Autogen.Yaml
