import TraceWeave.Json.Value
import TraceWeave.Number.Binary64
import TraceWeave.Text.Numeral

/-!
# What a JSON number stands for

A numeral without point and power of ten is a whole number if it fits a 64-bit word, unsigned or
with a minus sign; minus zero is not one. Every number is also a double, unless it is too large.

The double is not the nearest one to the numeral. The leading digits that fit an unsigned word are
taken as a double, and this is multiplied or divided by a power of ten, rounding again. Numbers
with up to fifteen digits and a small power of ten come out exact; others may end in a neighbour.
-/

namespace TraceWeave.Json

open TraceWeave.Text

/-- The parts of a numeral. -/
structure Numeral where
  negative : Bool
  whole : List Char
  fraction : List Char
  /-- The digits of the power of ten with their sign, if there are any. -/
  power : Option (List Char)
deriving Repr

namespace Numeral

/-- Takes a numeral apart. -/
def ofLiteral (literal : List Char) : Numeral :=
  let (negative, body) := match literal with
    | '-' :: rest => (true, rest)
    | _ => (false, literal)
  let rest := body.dropWhile Char.isDigit
  let (fraction, rest) := match rest with
    | '.' :: more => (more.takeWhile Char.isDigit, more.dropWhile Char.isDigit)
    | _ => ([], rest)
  ⟨negative, body.takeWhile Char.isDigit, fraction, match rest with | [] => none | _ :: p => some p⟩

/-- A numeral with neither point nor power of ten. -/
def isWhole (n : Numeral) : Bool :=
  n.fraction.isEmpty && n.power.isNone

end Numeral

/-- The largest unsigned word. -/
def maxUnsigned : Nat := 0xFFFF_FFFF_FFFF_FFFF

/-- The unsigned word that a numeral stands for. -/
def toUnsigned? (literal : List Char) : Option Nat :=
  let n := Numeral.ofLiteral literal
  let value := Text.Numeral.value n.whole
  if n.isWhole && !n.negative && value ≤ maxUnsigned then some value else none

/-- The signed word that a numeral stands for. -/
def toSigned? (literal : List Char) : Option Int :=
  let n := Numeral.ofLiteral literal
  let value := Text.Numeral.value n.whole
  if !n.isWhole then none
  else if n.negative then
    if 0 < value ∧ value ≤ 0x8000_0000_0000_0000 then some (-Int.ofNat value) else none
  else if value < 0x8000_0000_0000_0000 then some (Int.ofNat value) else none

/-! ## Doubles -/

/-- Takes digits into a significand while it fits an unsigned word. Returns it with the number of
digits taken. -/
def absorb (significand : Nat) : List Char → Nat × Nat
  | [] => (significand, 0)
  | c :: cs =>
    let next := 10 * significand + (c.toNat - 0x30)
    if next ≤ maxUnsigned then
      let (result, taken) := absorb next cs
      (result, taken + 1)
    else (significand, 0)

/-- The magnitude of a power of ten. -/
def tenTo (k : Nat) : Nat :=
  Binary64.nearest (Nat.pow 10 k) 1

/-- The rounded product of two finite magnitudes. -/
def product (a b : Nat) : Nat :=
  Binary64.nearest (Binary64.numerator a * Binary64.numerator b)
    (Binary64.denominator a * Binary64.denominator b)

/-- The rounded quotient of two finite magnitudes. -/
def quotient (a b : Nat) : Nat :=
  Binary64.nearest (Binary64.numerator a * Binary64.denominator b)
    (Binary64.denominator a * Binary64.numerator b)

/-- Divides by `10 ^ k`, by no more than `10 ^ 308` at a time. -/
def scaleDown (magnitude k : Nat) : Nat :=
  if magnitude = 0 then 0
  else if k ≤ 308 then quotient magnitude (tenTo k)
  else scaleDown (quotient magnitude (tenTo 308)) (k - 308)
termination_by k

/-- Multiplies by `10 ^ k`, unless the product is too large. -/
def scaleUp? (magnitude k : Nat) : Option Nat :=
  if magnitude = 0 then some 0
  else if 308 < k then none
  else
    let raised := product magnitude (tenTo k)
    if raised < Binary64.infinityMagnitude then some raised else none

/-- The magnitude of `significand * 10 ^ exponent`. -/
def scaled? (significand : Nat) (exponent : Int) : Option Nat :=
  let magnitude := Binary64.nearest significand 1
  if 0 ≤ exponent then scaleUp? magnitude exponent.natAbs
  else some (scaleDown magnitude exponent.natAbs)

/-- The double that a number is read as, unless it is too large. -/
def toDouble? (literal : List Char) : Option Binary64 :=
  let n := Numeral.ofLiteral literal
  let (leading, taken) := absorb 0 n.whole
  let (significand, places) := absorb leading n.fraction
  let power := ((n.power.bind Text.Numeral.int?).getD 0)
  let exponent := Int.ofNat (n.whole.length - taken) - Int.ofNat places + power
  (scaled? significand exponent).map (Binary64.ofMagnitude n.negative)

end TraceWeave.Json
