import TraceWeave.Text.Blank
import TraceWeave.Text.Numeral

/-!
# Durations

A length of time as whole seconds and nanoseconds, and its text: numbers with units, as in
`1m 30s`. A month is the twelfth part of a year, and a year has 365.25 days.

Blanks may stand between and inside the parts. A number may have decimals unless its unit is the
nanosecond, but they have to make up whole nanoseconds, or whole seconds of hours and longer
units.

* `add?_seconds_le`: durations that are added up stay in range.
-/

namespace TraceWeave

open Text

/-- A length of time. -/
structure Duration where
  seconds : UInt64
  nanos : Nat
  nanos_lt : nanos < 1_000_000_000 := by decide
deriving DecidableEq, Repr

namespace Duration

/-- The largest word. -/
def limit : Nat :=
  0xFFFF_FFFF_FFFF_FFFF

/-- Some whole seconds. -/
def ofSeconds (n : UInt64) : Duration :=
  ⟨n, 0, by decide⟩

def zero : Duration :=
  ofSeconds 0

def isZero (d : Duration) : Bool :=
  d.seconds == 0 && d.nanos == 0

/-! ## Units -/

/-- A unit that durations are given in. -/
inductive Unit
  | nanosecond
  | microsecond
  | millisecond
  | second
  | minute
  | hour
  | day
  | week
  | month
  | year
deriving DecidableEq, Repr

namespace Unit

/-- The words for a unit. -/
def words : Unit → List String
  | nanosecond => ["nanos", "nsec", "ns"]
  | microsecond => ["usec", "us", "µs"]
  | millisecond => ["millis", "msec", "ms"]
  | second => ["seconds", "second", "secs", "sec", "s"]
  | minute => ["minutes", "minute", "min", "mins", "m"]
  | hour => ["hours", "hour", "hrs", "hr", "h"]
  | day => ["days", "day", "d"]
  | week => ["weeks", "week", "wks", "wk", "w"]
  | month => ["months", "month", "M"]
  | year => ["years", "year", "yrs", "yr", "y"]

def all : List Unit :=
  [nanosecond, microsecond, millisecond, second, minute, hour, day, week, month, year]

/-- The unit with a word. Case counts: `m` is a minute and `M` a month. -/
def ofWord? (word : List Char) : Option Unit :=
  all.find? fun u => u.words.any (·.toList = word)

/-- The length in seconds, or in nanoseconds below a second. -/
def length : Unit → Nat
  | nanosecond => 1
  | microsecond => 1000
  | millisecond => 1000000
  | second => 1
  | minute => 60
  | hour => 3600
  | day => 86400
  | week => 604800
  | month => 2630016
  | year => 31557600

/-- Shorter than a second. -/
def isBelowSecond (u : Unit) : Bool :=
  u == nanosecond || u == microsecond || u == millisecond

/-- The length in the unit that decimals are counted in: nanoseconds up to the minute. -/
def decimalLength (u : Unit) : Nat :=
  if u == second || u == minute then u.length * 1_000_000_000 else u.length

/-- Decimals are counted in nanoseconds. -/
def hasFineDecimals (u : Unit) : Bool :=
  u.isBelowSecond || u == second || u == minute

end Unit

/-! ## Reading -/

/-- A number that fits a word. -/
def word? (n : Nat) : Option Nat :=
  if n ≤ limit then some n else none

/-- Adds seconds and nanoseconds. -/
def add? (d : Duration) (seconds nanos : Nat) : Option Duration := do
  let nanos ← word? (d.nanos + nanos)
  let seconds ← word? (d.seconds.toNat + seconds + nanos / 1_000_000_000)
  return ⟨UInt64.ofNat seconds, nanos % 1_000_000_000, Nat.mod_lt _ (by decide)⟩

/-- Adds an amount that is counted in seconds or in nanoseconds. -/
def addAmount? (d : Duration) (inNanos : Bool) (amount : Nat) : Option Duration :=
  if inNanos then d.add? 0 amount else d.add? amount 0

/-- Adds whole units. -/
def addWhole? (d : Duration) (u : Unit) (n : Nat) : Option Duration := do
  d.addAmount? u.isBelowSecond (← word? (n * u.length))

/-- Adds decimals of a unit, given as their digits. None of them may be lost. -/
def addDecimals? (d : Duration) (u : Unit) (digits : List Char) : Option Duration := do
  let parts ← word? (Nat.pow 10 digits.length)
  let amount ← word? (Numeral.value digits * u.decimalLength)
  if u = .nanosecond ∨ amount % parts ≠ 0 then none
  else d.addAmount? u.hasFineDecimals (amount / parts)

/-- The characters of units. -/
def isLetter (c : Char) : Bool :=
  c.isAlpha || c == 'µ'

/-- Digits, between which blanks do not count, and what follows them. -/
def digitsThen (cs : List Char) : List Char × List Char :=
  let belongs (c : Char) : Bool := c.isDigit || isBlank c
  ((cs.takeWhile belongs).filter Char.isDigit, cs.dropWhile belongs)

/-- Reads numbers with their units and adds them up. Each of them takes at least one character. -/
def readParts? (d : Duration) : (fuel : Nat) → List Char → Option Duration
  | 0, _ => none
  | fuel + 1, cs => do
    let (digits, rest) := digitsThen cs
    let n ← (Numeral.nat? digits).bind word?
    let (decimals, rest) ← match rest with
      | '.' :: rest =>
        let (decimals, rest) := digitsThen rest
        if decimals.isEmpty then none else some (some decimals, rest)
      | _ => some (none, rest)
    let u ← Unit.ofWord? (rest.takeWhile isLetter)
    let d ← d.addWhole? u n
    let d ← decimals.elim (some d) (d.addDecimals? u)
    match trimFront (rest.dropWhile isLetter) with
    | [] => some d
    | c :: rest => if c.isDigit then readParts? d fuel (c :: rest) else none

/-- Reads a duration. Only zero may stand without a unit. -/
def read? (cs : List Char) : Option Duration :=
  if cs = ['0'] then some zero
  else
    match trimFront cs with
    | [] => none
    | c :: rest => if c.isDigit then readParts? zero cs.length (c :: rest) else none

/-! ## Writing -/

/-- A number with a unit, unless it is zero. -/
def part (n : Nat) (unit : String) : List (List Char) :=
  if n = 0 then [] else [Numeral.ofNat n ++ unit.toList]

/-- A number with a unit that has a plural. -/
def partPlural (n : Nat) (unit : String) : List (List Char) :=
  part n (if n = 1 then unit else unit ++ "s")

/-- Writes a duration, with the longest units first. -/
def write (d : Duration) : List Char :=
  let seconds := d.seconds.toNat
  let inYear := seconds % Unit.year.length
  let inMonth := inYear % Unit.month.length
  let inDay := inMonth % Unit.day.length
  let parts := partPlural (seconds / Unit.year.length) "year" ++
    partPlural (inYear / Unit.month.length) "month" ++
    partPlural (inMonth / Unit.day.length) "day" ++ part (inDay / 3600) "h" ++
    part (inDay % 3600 / 60) "m" ++ part (inDay % 60) "s" ++ part (d.nanos / 1000000) "ms" ++
    part (d.nanos / 1000 % 1000) "us" ++ part (d.nanos % 1000) "ns"
  if parts.isEmpty then "0s".toList else [' '].intercalate parts

theorem add?_seconds_le {d e : Duration} {seconds nanos : Nat} (h : d.add? seconds nanos = some e) :
    d.seconds.toNat + seconds ≤ limit := by
  simp only [add?, word?, bind, Option.bind_eq_some_iff] at h
  obtain ⟨n, -, m, hm, -⟩ := h
  split at hm <;> simp_all
  omega

end Duration

end TraceWeave
