import TraceWeave.Text.Numeral

/-!
# Civil time

Nanoseconds since the start of 1970 as a date and a time of day in universal time.

The calendar is counted in eras of 400 years that begin with March, so that the leap day, if
there is one, is the last day of its year.
-/

namespace TraceWeave.Clock

open Text

/-- Year, month and day. -/
structure Date where
  year : Nat
  month : Nat
  day : Nat
deriving DecidableEq, Repr

/-- The date of a day, counted from the first of January 1970. -/
def Date.ofDay (day : Nat) : Date :=
  let shifted := day + 719468
  let era := shifted / 146097
  let dayOfEra := shifted % 146097
  let yearOfEra := (dayOfEra - dayOfEra / 1460 + dayOfEra / 36524 - dayOfEra / 146096) / 365
  let dayOfYear := dayOfEra - (365 * yearOfEra + yearOfEra / 4 - yearOfEra / 100)
  let marchMonth := (5 * dayOfYear + 2) / 153
  let month := if marchMonth < 10 then marchMonth + 3 else marchMonth - 9
  { year := 400 * era + yearOfEra + (if month ≤ 2 then 1 else 0)
    month := month
    day := dayOfYear - (153 * marchMonth + 2) / 5 + 1 }

example : Date.ofDay 0 = ⟨1970, 1, 1⟩ := by decide
example : Date.ofDay 59 = ⟨1970, 3, 1⟩ := by decide
example : Date.ofDay 11016 = ⟨2000, 2, 29⟩ := by decide
example : Date.ofDay 19782 = ⟨2024, 2, 29⟩ := by decide

/-- Hours, minutes and seconds of a second, `13:05:00`. -/
def timeOfDay (seconds : Nat) : List Char :=
  let inDay := seconds % 86400
  Numeral.padded 2 (inDay / 3600) ++ ':' :: Numeral.padded 2 (inDay / 60 % 60) ++
    ':' :: Numeral.padded 2 (inDay % 60)

/-- Date and time, `2023-11-14 22:13:20`. -/
def dateTime (nanos : Nat) : List Char :=
  let seconds := nanos / 1_000_000_000
  let date := Date.ofDay (seconds / 86400)
  Numeral.padded 4 date.year ++ '-' :: Numeral.padded 2 date.month ++
    '-' :: Numeral.padded 2 date.day ++ ' ' :: timeOfDay seconds

/-- Time of day down to the millisecond, `22:13:20.123`; what is left of it is dropped. -/
def timeWithMillis (nanos : Nat) : List Char :=
  timeOfDay (nanos / 1_000_000_000) ++ '.' :: Numeral.padded 3 (nanos / 1_000_000 % 1000)

end TraceWeave.Clock
