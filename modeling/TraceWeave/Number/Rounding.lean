/-!
# Rounding a quotient

The whole number nearest to a quotient of natural numbers, with a choice of how a tie is broken.

* `roundDiv_within_half`: the result is at most half a unit away.
-/

namespace TraceWeave.Number

/-- Where a quotient halfway between two whole numbers goes. -/
inductive Tie
  /-- To the even neighbour. -/
  | toEven
  /-- To the larger neighbour. -/
  | up
deriving DecidableEq, Repr

/-- The whole number nearest to `num / den`. -/
def roundDiv (tie : Tie) (num den : Nat) : Nat :=
  let q := num / den
  let r := num % den
  if 2 * r < den then q
  else if den < 2 * r then q + 1
  else match tie with
    | .toEven => q + q % 2
    | .up => q + 1

/-- The distance between the quotient and its rounding, in units of `1 / (2 * den)`. -/
theorem roundDiv_within_half (tie : Tie) (num : Nat) {den : Nat} (h : 0 < den) :
    2 * num ≤ 2 * (roundDiv tie num den * den) + den ∧
      2 * (roundDiv tie num den * den) ≤ 2 * num + den := by
  have hdiv := Nat.div_add_mod num den
  have hmod := Nat.mod_lt num h
  have hcomm : den * (num / den) = num / den * den := Nat.mul_comm _ _
  simp only [roundDiv]
  split
  · omega
  · split
    · rw [Nat.add_mul]
      omega
    · cases tie with
      | toEven =>
        simp only
        have : num / den % 2 = 0 ∨ num / den % 2 = 1 := by omega
        rcases this with hp | hp
        · rw [hp]
          simp only [Nat.add_zero]
          omega
        · rw [hp, Nat.add_mul]
          omega
      | up =>
        simp only
        rw [Nat.add_mul]
        omega

end TraceWeave.Number
