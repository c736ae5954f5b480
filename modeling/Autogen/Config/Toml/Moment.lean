import Autogen.Config.Decode
import Autogen.Moment

/-!
# Dates and times in TOML

A date is written with its year first, a time behind it is parted from it by a letter or a space,
and the difference of the clock from the common one may follow the time.

## Main definitions

* `Toml.takeDate`, `Toml.takeClock`, `Toml.takeZone` — the parts of a moment.
* `Toml.takeMoment` — a date, a time, or both.
-/

namespace Autogen.Toml

open Decode

/-- The number with the given count of digits at the start of a text, and what comes after it. -/
def takeNumeral (count : Nat) (cs : List Char) : Option (Nat × List Char) :=
  let digits := cs.take count
  if digits.length = count ∧ digits.all isDecimal then
    (numberInBase? 10 digits).map fun n => (n, cs.drop count)
  else none

/-- What comes after a character at the start of a text, which has to be one of those given. -/
def takeMark (marks : List Char) : List Char → Option (List Char)
  | c :: rest => if marks.contains c then some rest else none
  | [] => none

/-- The day at the start of a text, which need not exist, and what comes after it. No month is given
a number above twelve and no day one above thirty-one. -/
def takeDate (cs : List Char) : Option (Date × List Char) := do
  let (year, cs) ← takeNumeral 4 cs
  let (month, cs) ← takeNumeral 2 (← takeMark ['-'] cs)
  let (day, cs) ← takeNumeral 2 (← takeMark ['-'] cs)
  if 1 ≤ month ∧ month ≤ 12 ∧ 1 ≤ day ∧ day ≤ 31 then some (⟨year, month, day⟩, cs) else none

/-- The digits of a fraction of a second, if there is one, and what comes after them. -/
def takeSubsecond (cs : List Char) : List Char × List Char :=
  match cs with
  | '.' :: rest =>
    let digits := rest.takeWhile isDecimal
    if digits.isEmpty then ([], cs) else (digits, rest.drop digits.length)
  | _ => ([], cs)

/-- The time at the start of a text, and what comes after it. -/
def takeClock (cs : List Char) : Option (ClockTime × List Char) := do
  let (hour, cs) ← takeNumeral 2 cs
  let (minute, cs) ← takeNumeral 2 (← takeMark [':'] cs)
  let (second, cs) ← takeNumeral 2 (← takeMark [':'] cs)
  let (fraction, after) := takeSubsecond cs
  return (← ClockTime.ofParts? hour minute second (microseconds fraction), after)

/-- The number of minutes by which a clock is ahead, if one is written with its sign, and what comes
after it. -/
def takeDifference (cs : List Char) : Option (Int × List Char) := do
  let negative := cs.head? == some '-'
  let (hour, cs) ← takeNumeral 2 (← takeMark ['+', '-'] cs)
  let (minute, cs) ← takeNumeral 2 (← takeMark [':'] cs)
  if hour < 24 ∧ minute < 60 then
    let n : Int := 60 * hour + minute
    return (if negative then -n else n, cs)
  else none

/-- The number of minutes by which a clock is ahead, if it is known, and what comes after it. -/
def takeZone (cs : List Char) : Option Int × List Char :=
  match takeMark ['Z', 'z'] cs, takeDifference cs with
  | some rest, _ => (some 0, rest)
  | none, some (ahead, rest) => (some ahead, rest)
  | none, none => (none, cs)

/-- The date, time or both at the start of a text, if there are any, and what comes after them. It
may turn out that there is no such day. -/
def takeMoment (cs : List Char) : Option (Option Moment × List Char) :=
  match takeDate cs with
  | none => (takeClock cs).map fun (time, rest) => (some (.time time), rest)
  | some (day, rest) =>
    let date := Date.ofParts? day.year day.month day.day
    match (takeMark ['T', 't', ' '] rest).bind takeClock with
    | none => some (date.map .date, rest)
    | some (time, rest) =>
      let (ahead, rest) := takeZone rest
      some (date.bind fun date => Moment.ofParts? date time ahead, rest)

end Autogen.Toml
