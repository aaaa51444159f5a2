import TraceWeave.Number.Binary64
import TraceWeave.Text.Numeral

/-!
# The fewest digits that read back

A finite double is written with as few significant digits as determine it: on the grids of one,
two, … significant digits, the first grid wins on which one of the two points beside the value
rounds to the double. Of two such points the nearer is taken, and a tie is left to the format.

* `readsBack_of_mem_fewest`: digits found on a grid round to the double.
-/

namespace TraceWeave.Number

open TraceWeave.Text

/-- The number `digits * 10 ^ exponent`. -/
structure Decimal where
  digits : Nat
  exponent : Int
deriving DecidableEq, Repr

namespace Decimal

/-- The number as a fraction: what stands over the line. -/
def numerator (d : Decimal) : Nat :=
  d.digits * Nat.pow 10 d.exponent.toNat

/-- The number as a fraction: what stands under the line. -/
def denominator (d : Decimal) : Nat :=
  Nat.pow 10 (-d.exponent).toNat

/-- Whether the magnitude is the one nearest to the decimal number. -/
def readsBack (magnitude : Nat) (d : Decimal) : Bool :=
  Binary64.nearest d.numerator d.denominator == magnitude

/-- The power of ten of the first digit of a positive fraction. -/
def leadingPlace (num den : Nat) : Int :=
  if den ≤ num then ((Numeral.ofNat (num / den)).length : Int) - 1
  else -((Numeral.ofNat ((den - 1) / num)).length : Int)

/-- The two points beside a fraction among the multiples of `10 ^ place`, the nearer one first. -/
def beside (tie : Tie) (num den : Nat) (place : Int) : List Decimal :=
  let n := num * Nat.pow 10 (-place).toNat
  let d := den * Nat.pow 10 place.toNat
  let near := roundDiv tie n d
  let far := if near = n / d then near + 1 else n / d
  [⟨near, place⟩, ⟨far, place⟩]

/-- The value of a magnitude with all its digits: a power of five cancels the denominator. -/
def exact (magnitude : Nat) : Decimal :=
  let twos := 1075 - Binary64.scale magnitude
  ⟨Binary64.numerator magnitude * Nat.pow 5 twos, -(twos : Int)⟩

/-- A decimal of at most seventeen digits for the magnitude, of as few digits as possible. -/
def fewest? (tie : Tie) (magnitude : Nat) : Option Decimal :=
  let num := Binary64.numerator magnitude
  let den := Binary64.denominator magnitude
  let top := leadingPlace num den
  (List.range 17).findSome? fun (k : Nat) =>
    (beside tie num den (top - (k : Int))).find? (readsBack magnitude)

/-- The decimal that a magnitude is written as. Seventeen digits determine every double, so the
full expansion only makes the function total. -/
def shortest (tie : Tie) (magnitude : Nat) : Decimal :=
  (fewest? tie magnitude).getD (exact magnitude)

theorem readsBack_of_mem_fewest {tie : Tie} {magnitude : Nat} {d : Decimal}
    (h : fewest? tie magnitude = some d) : d.readsBack magnitude = true := by
  obtain ⟨k, -, hk⟩ := List.exists_of_findSome?_eq_some h
  exact List.find?_some hk

end Decimal

end TraceWeave.Number
