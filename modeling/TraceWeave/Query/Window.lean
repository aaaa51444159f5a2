import TraceWeave.Text.Blank
import TraceWeave.Text.Numeral

/-!
# Look-back windows

A window such as `30m`, `2h` or `1d` keeps the spans that started within that time before now.
Amounts are words of 64 bits, and lengths beyond that stop at the largest word.

* `Window.cutoff_le`: the window starts no later than now.
-/

namespace TraceWeave.Query

open Text

/-- The unit of a window. -/
inductive WindowUnit
  | minutes
  | hours
  | days
deriving DecidableEq, Repr

namespace WindowUnit

def seconds : WindowUnit → Nat
  | minutes => 60
  | hours => 60 * 60
  | days => 60 * 60 * 24

def letter : WindowUnit → Char
  | minutes => 'm'
  | hours => 'h'
  | days => 'd'

def ofLetter? : Char → Option WindowUnit
  | 'm' => some minutes
  | 'h' => some hours
  | 'd' => some days
  | _ => none

theorem ofLetter?_letter (u : WindowUnit) : ofLetter? u.letter = some u := by
  cases u <;> rfl

end WindowUnit

/-- A length of time back from now. -/
structure Window where
  amount : UInt64
  unit : WindowUnit
deriving DecidableEq, Repr

namespace Window

/-- The largest word. -/
def limit : Nat :=
  0xFFFF_FFFF_FFFF_FFFF

/-- The length in seconds. -/
def seconds (w : Window) : Nat :=
  min (w.amount.toNat * w.unit.seconds) limit

/-- The length in nanoseconds. -/
def nanos (w : Window) : Nat :=
  min (w.seconds * 1_000_000_000) limit

/-- The earliest start that the window keeps. -/
def cutoff (w : Window) (now : UInt64) : Nat :=
  now.toNat - w.nanos

/-- Reads digits and a unit, with blanks around them. What does not read, or has the amount
zero, is no window. -/
def read? (text : String) : Option Window := do
  let cs := trim text.toList
  match cs.dropWhile Char.isDigit with
  | [letter] =>
    let unit ← WindowUnit.ofLetter? letter
    let amount ← (Numeral.nat? (cs.takeWhile Char.isDigit)).filter (· ≤ limit)
    if amount = 0 then none else some ⟨amount.toUInt64, unit⟩
  | _ => none

theorem cutoff_le (w : Window) (now : UInt64) : w.cutoff now ≤ now.toNat :=
  Nat.sub_le _ _

end Window

end TraceWeave.Query
