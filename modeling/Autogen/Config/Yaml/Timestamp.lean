import Autogen.Config.Decode
import Autogen.Config.Yaml.Cursor
import Autogen.Moment

/-!
# Timestamps in YAML

A date, alone or with a time behind it. A date that stands alone has two digits for its month and
its day; elsewhere one digit is enough.

## Main definitions

* `Yaml.Timestamp` — the parts of a timestamp as they are written.
* `Yaml.Timestamp.ofChars?` — the timestamp that a text is spelled like.
* `Yaml.Timestamp.moment?` — the moment that it tells, if there is one.
-/

namespace Autogen.Yaml

open Decode

/-- The parts of a timestamp as they are written. The time comes with the number of minutes by which
its clock is ahead, if that is written as well. -/
structure Timestamp where
  date : Date
  time : Option (ClockTime × Option Int)
deriving DecidableEq, Repr

/-- The number that the digits at the start of a text write, of which so many are needed and so many
taken, and what comes after it. -/
def takeNumeral (least most : Nat) (cs : List Char) : Option (Nat × List Char) :=
  let digits := (cs.take most).takeWhile isDecimal
  if digits.length < least then none
  else (numberInBase? 10 digits).map fun n => (n, cs.drop digits.length)

/-- A number behind a mark, and what comes after it. -/
def takeMarked (mark : Char) (least most : Nat) : List Char → Option (Nat × List Char)
  | c :: rest => if c = mark then takeNumeral least most rest else none
  | [] => none

/-- What comes after the letter or the white space that parts a time from its date. -/
def afterDate : List Char → Option (List Char)
  | 'T' :: rest => some rest
  | 't' :: rest => some rest
  | c :: rest => if isBlank c then some (rest.dropWhile isBlank) else none
  | [] => none

/-- The number of minutes by which a clock is ahead, from its sign on. -/
def difference? (cs : List Char) : Option Int := do
  let negative := cs.head? == some '-'
  let (hours, rest) ← (takeMarked '+' 1 2 cs).or (takeMarked '-' 1 2 cs)
  let (minutes, rest) ← if rest.isEmpty then some (0, []) else takeMarked ':' 2 2 rest
  let n : Int := 60 * hours + minutes
  if rest.isEmpty then return if negative then -n else n else none

/-- What a text behind a time says about the clock, which may be nothing. -/
def zone? (cs : List Char) : Option (Option Int) :=
  if cs.isEmpty then some none
  else
    match cs.dropWhile isBlank with
    | ['Z'] => some (some 0)
    | rest => (difference? rest).map some

/-- The digits of a fraction of a second behind its point, and what comes after them. -/
def takeFraction : List Char → List Char × List Char
  | '.' :: rest => (rest.takeWhile isDecimal, rest.dropWhile isDecimal)
  | cs => ([], cs)

/-- The timestamp that a text is spelled like. A date that stands alone may be asked to have all its
digits. -/
def Timestamp.ofChars? (strict : Bool) (cs : List Char) : Option Timestamp := do
  let (year, rest) ← takeNumeral 4 4 cs
  let (month, rest) ← takeMarked '-' 1 2 rest
  let (day, rest) ← takeMarked '-' 1 2 rest
  let date : Date := ⟨year, month, day⟩
  if rest.isEmpty then
    if strict ∧ cs.length < 10 then none else return ⟨date, none⟩
  else
    let (hour, rest) ← takeNumeral 1 2 (← afterDate rest)
    let (minute, rest) ← takeMarked ':' 2 2 rest
    let (second, rest) ← takeMarked ':' 2 2 rest
    let (fraction, rest) := takeFraction rest
    return ⟨date, some (⟨hour, minute, second, microseconds fraction⟩, ← zone? rest)⟩

/-- The moment that a timestamp tells, if there is one. -/
def Timestamp.moment? (t : Timestamp) : Option Moment := do
  let date ← Date.ofParts? t.date.year t.date.month t.date.day
  match t.time with
  | none => return .date date
  | some (time, ahead) =>
    Moment.ofParts? date
      (← ClockTime.ofParts? time.hour time.minute time.second time.microsecond) ahead

end Autogen.Yaml
