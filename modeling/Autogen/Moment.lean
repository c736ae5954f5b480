import Autogen.Text.Split

/-!
# Dates and times

Days of the calendar, times of the clock, and the two together. A date with a time may tell how far
its clock is ahead of the common one.

## Main definitions

* `Date`, `ClockTime`, `Moment` — dates, times, and either or both.
* `Date.ofParts?`, `ClockTime.ofParts?`, `Moment.ofParts?` — the ones that exist.
* `Moment.shown`, `Moment.text` — the text by which messages show a moment, and its plain text.
* `Moment.identity` — what tells moments apart.
-/

namespace Autogen

/-- A day of the calendar. -/
structure Date where
  year : Nat
  month : Nat
  day : Nat
deriving DecidableEq, Repr

/-- A time of the clock. -/
structure ClockTime where
  hour : Nat
  minute : Nat
  second : Nat
  microsecond : Nat
deriving DecidableEq, Repr

/-- A date, a time, or both. The number of minutes by which the clock is ahead of the common one may
be known. -/
inductive Moment where
  | date (date : Date)
  | time (time : ClockTime)
  | dateTime (date : Date) (time : ClockTime) (ahead : Option Int)
deriving DecidableEq, Repr

/-- A number with zeros in front, so that it has at least the given number of digits. -/
def padded (width n : Nat) : String :=
  .ofList (List.leftpad width '0' (toString n).toList)

namespace Date

/-- Whether a year has a day more than others. -/
def isLeapYear (year : Nat) : Bool :=
  year % 4 == 0 && (year % 100 != 0 || year % 400 == 0)

/-- The number of days of a month. -/
def monthLength (year month : Nat) : Nat :=
  if month = 2 then if isLeapYear year then 29 else 28
  else if [4, 6, 9, 11].contains month then 30
  else 31

/-- Whether a day exists. Years have at most four digits. -/
def isValid (d : Date) : Bool :=
  1 ≤ d.year && d.year ≤ 9999 && 1 ≤ d.month && d.month ≤ 12 && 1 ≤ d.day &&
    d.day ≤ monthLength d.year d.month

/-- The day with the given number in the given month, if there is one. -/
def ofParts? (year month day : Nat) : Option Date :=
  let d : Date := ⟨year, month, day⟩
  if d.isValid then some d else none

/-- The number of the day, counted from the first day of the first year. -/
def number (d : Date) : Nat :=
  let years := d.year - 1
  let months := (List.range' 1 (d.month - 1)).map (monthLength d.year)
  365 * years + years / 4 - years / 100 + years / 400 + months.foldl (· + ·) 0 + d.day

/-- The text of a date. -/
def text (d : Date) : String :=
  padded 4 d.year ++ "-" ++ padded 2 d.month ++ "-" ++ padded 2 d.day

/-- The parts of a date that are shown. -/
def parts (d : Date) : List Nat :=
  [d.year, d.month, d.day]

end Date

namespace ClockTime

/-- Whether a time exists. -/
def isValid (t : ClockTime) : Bool :=
  t.hour < 24 && t.minute < 60 && t.second < 60 && t.microsecond < 1000000

/-- The time with the given parts, if there is one. -/
def ofParts? (hour minute second microsecond : Nat) : Option ClockTime :=
  let t : ClockTime := ⟨hour, minute, second, microsecond⟩
  if t.isValid then some t else none

/-- The number of microseconds since midnight. -/
def number (t : ClockTime) : Nat :=
  ((t.hour * 60 + t.minute) * 60 + t.second) * 1000000 + t.microsecond

/-- The text of a time. -/
def text (t : ClockTime) : String :=
  padded 2 t.hour ++ ":" ++ padded 2 t.minute ++ ":" ++ padded 2 t.second ++
    if t.microsecond = 0 then "" else "." ++ padded 6 t.microsecond

/-- The parts of a time that are shown; zeros at the end are left out, but not the minute. -/
def parts (t : ClockTime) : List Nat :=
  [t.hour, t.minute] ++
    if t.microsecond ≠ 0 then [t.second, t.microsecond]
    else if t.second ≠ 0 then [t.second]
    else []

end ClockTime

namespace Moment

/-- The number of minutes of a day. -/
def dayMinutes : Nat := 24 * 60

/-- A date with a time, if a clock can be ahead or behind that far, which is less than a day. -/
def ofParts? (date : Date) (time : ClockTime) (ahead : Option Int) : Option Moment :=
  if ahead.all (·.natAbs < dayMinutes) then some (dateTime date time ahead) else none

/-- The shown form of something that is made from parts. -/
def shownCall (name : String) (parts : List String) : String :=
  "datetime." ++ name ++ "(" ++ Text.join ", " parts ++ ")"

/-- The shown form of the number of minutes by which a clock is ahead: whole days, which may be
negative, and the seconds after them. -/
def shownZone (ahead : Int) : String :=
  if ahead = 0 then "datetime.timezone.utc"
  else
    let days := ahead.fdiv dayMinutes
    let seconds := 60 * ahead.fmod dayMinutes
    let part (name : String) (n : Int) := if n = 0 then [] else [name ++ "=" ++ toString n]
    shownCall "timezone" [shownCall "timedelta" (part "days" days ++ part "seconds" seconds)]

/-- The text by which messages show a moment. -/
def shown : Moment → String
  | date d => shownCall "date" (d.parts.map toString)
  | time t => shownCall "time" (t.parts.map toString)
  | dateTime d t ahead =>
    shownCall "datetime" ((d.parts ++ t.parts).map toString ++
      (ahead.map fun n => "tzinfo=" ++ shownZone n).toList)

/-- The plain text of the number of minutes by which a clock is ahead. -/
def zoneText (ahead : Int) : String :=
  (if ahead < 0 then "-" else "+") ++ padded 2 (ahead.natAbs / 60) ++ ":" ++
    padded 2 (ahead.natAbs % 60)

/-- The plain text of a moment. -/
def text : Moment → String
  | date d => d.text
  | time t => t.text
  | dateTime d t ahead => d.text ++ " " ++ t.text ++ (ahead.map zoneText).getD ""

theorem text_ne_empty (m : Moment) : m.text ≠ "" := by
  cases m <;> simp [text, Date.text, ClockTime.text, String.append_eq_empty_iff]

/-- What tells moments apart. Where it is known how far a clock is ahead, that is the number of
microseconds on the common clock. -/
def identity : Moment → Moment ⊕ Int
  | dateTime d t (some ahead) =>
    .inr (((d.number * dayMinutes : Nat) - ahead) * 60000000 + t.number)
  | m => .inl m

end Moment

end Autogen
