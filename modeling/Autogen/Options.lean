/-!
# Merging of rcc options

The options of a target and those of one of its resource files, put together.

## Main definitions

* `Options.name?` — the name of an option, if a token is one.
* `Options.takesValue` — whether an option is followed by its value.
* `Options.merge` — the options of a target updated by those of a file.
-/

namespace Autogen.Options

/-- The names of the rcc options that are followed by a value. -/
def valueNames : List String :=
  ["name", "root", "compress", "threshold"]

/-- The name of an option: the token without the dash in front or, where long options are known,
without the two dashes. A token without a dash in front is no option. -/
def name? (stripDoubleDash : Bool) (token : String) : Option String :=
  match token.toList with
  | '-' :: '-' :: rest => some (.ofList (if stripDoubleDash then rest else '-' :: rest))
  | '-' :: rest => some (.ofList rest)
  | _ => none

/-- Whether a token is an option that is followed by its value. -/
def takesValue (stripDoubleDash : Bool) (token : String) : Bool :=
  match name? stripDoubleDash token with
  | some name => valueNames.contains name
  | none => false

/-- Goes through the options of a file: the first list is the target's options with the values of
shared options replaced, the second one the tokens that the target lacks. -/
def update (stripDoubleDash : Bool) : List String → List String → List String × List String
  | merged, [] => (merged, [])
  | merged, [token] => (merged, if token ∈ merged then [] else [token])
  | merged, token :: value :: rest =>
    if token ∈ merged then
      let place := merged.idxOf token + 1
      if takesValue stripDoubleDash token ∧ place < merged.length then
        update stripDoubleDash (merged.set place value) rest
      else update stripDoubleDash merged (value :: rest)
    else if takesValue stripDoubleDash token then
      let (merged, extra) := update stripDoubleDash merged rest
      (merged, token :: value :: extra)
    else
      let (merged, extra) := update stripDoubleDash merged (value :: rest)
      (merged, token :: extra)

/-- The options of a target updated by those of a file. Options that both have keep their place
and take the file's value; those that only the file has follow at the end. -/
def merge (stripDoubleDash : Bool) (target file : List String) : List String :=
  let (merged, extra) := update stripDoubleDash target file
  merged ++ extra

end Autogen.Options
