import TraceWeave.Proofs.Json.Numerals
import TraceWeave.Proofs.Number.Digits
import TraceWeave.Proofs.Number.Value

/-!
# Numerals that are read as doubles

A numeral is read by rounding its leading digits, and again after they have been scaled by a power
of ten. A number close to the largest double may come to infinity on that way and is refused then.
One that is no larger than `safeBound` never is, whatever digits are left out.

* `scaled?_isSome`: scaling stays finite;
* `toDouble?_literal_isSome`: a numeral up to the bound is read;
* `toDouble?_plain_isSome`: so is one without a power of ten and few digits before the point.
-/

namespace TraceWeave.Json

open TraceWeave.Text TraceWeave.Binary64

/-! ## Scaling -/

theorem unit_top : unit 2046 = 2 ^ 971 := by
  rw [unit, ← zpow_natCast]
  rfl

theorem natCast_le_safeBound {n : Nat} (h : n ≤ (2 ^ 53 - 4) * 2 ^ 971) :
    (n : ℚ) ≤ safeBound := by
  have hcast : (n : ℚ) ≤ ((2 ^ 53 - 4) * 2 ^ 971 : ℕ) := by exact_mod_cast h
  refine hcast.trans ?_
  rw [Nat.cast_mul, Nat.cast_pow, Nat.cast_ofNat, safeBound, unit_top]
  exact mul_le_mul_of_nonneg_right (by norm_num) (by positivity)

theorem safeBound_lt_ten_pow : safeBound < 10 ^ 309 := by
  have hquarter : 2 ^ 256 ≤ 116 * 10 ^ 75 := by norm_num
  have hpow : 2 ^ 53 * 2 ^ 971 ≤ 10 ^ 309 := by
    calc 2 ^ 53 * 2 ^ 971 = (2 ^ 256) ^ 4 := by rw [← pow_add, ← pow_mul]
      _ ≤ (116 * 10 ^ 75) ^ 4 := Nat.pow_le_pow_left hquarter 4
      _ = 116 ^ 4 * 10 ^ 300 := by rw [Nat.mul_pow, ← pow_mul]
      _ ≤ 10 ^ 9 * 10 ^ 300 := Nat.mul_le_mul_right _ (by norm_num)
      _ = 10 ^ 309 := by rw [← pow_add]
  have hpow' : (2 : ℚ) ^ 53 * 2 ^ 971 ≤ 10 ^ 309 := by exact_mod_cast hpow
  refine lt_of_lt_of_le ?_ hpow'
  rw [safeBound, unit_top]
  exact mul_lt_mul_of_pos_right (by norm_num) (by positivity)

theorem ten_pow_le_safeBound {k : Nat} (hk : k ≤ 308) : ((10 ^ k : ℕ) : ℚ) ≤ safeBound := by
  have hquarter : 10 ^ 77 ≤ 7 * 2 ^ 253 := by norm_num
  refine natCast_le_safeBound ?_
  calc 10 ^ k ≤ 10 ^ 308 := pow_le_pow_right₀ (by norm_num) hk
    _ = (10 ^ 77) ^ 4 := by rw [← pow_mul]
    _ ≤ (7 * 2 ^ 253) ^ 4 := Nat.pow_le_pow_left hquarter 4
    _ = 7 ^ 4 * 2 ^ 41 * 2 ^ 971 := by rw [Nat.mul_pow, ← pow_mul, mul_assoc, ← pow_add]
    _ ≤ (2 ^ 53 - 4) * 2 ^ 971 := Nat.mul_le_mul_right _ (by norm_num)

theorem value_nonneg (m : Nat) : 0 ≤ value m :=
  mul_nonneg (Nat.cast_nonneg _) (unit_pos _).le

theorem denominator_pos (m : Nat) : 0 < denominator m :=
  Nat.pow_pos (by decide)

/-- A product that stays below the bound stays so when both factors have been rounded. -/
theorem scaleUp?_isSome {significand k : Nat} (hk : k ≤ 308)
    (hle : (significand : ℚ) * 10 ^ k ≤ safeBound) :
    (scaleUp? (nearest significand 1) k).isSome = true := by
  have hsignificand : (significand : ℚ) ≤ safeBound := by
    refine le_trans ?_ hle
    exact le_mul_of_one_le_right (Nat.cast_nonneg _) (one_le_pow₀ (by norm_num))
  have hleft := value_nearest_le hsignificand
  have hright := value_nearest_le (ten_pow_le_safeBound hk)
  rw [Nat.cast_pow, Nat.cast_ofNat] at hright
  have hproduct : value (nearest significand 1) * value (tenTo k) <
      (2 ^ 53 - 1 / 2) * unit 2046 := by
    calc value (nearest significand 1) * value (tenTo k)
        ≤ (significand * (1 + 1 / 2 ^ 53)) * (10 ^ k * (1 + 1 / 2 ^ 53)) :=
          mul_le_mul hleft hright (value_nonneg _) (by positivity)
      _ = significand * 10 ^ k * (1 + 1 / 2 ^ 53) ^ 2 := by ring
      _ ≤ safeBound * (1 + 1 / 2 ^ 53) ^ 2 := mul_le_mul_of_nonneg_right hle (by positivity)
      _ < (2 ^ 53 - 1 / 2) * unit 2046 := by
        rw [safeBound, mul_right_comm]
        exact mul_lt_mul_of_pos_right (by norm_num) (unit_pos 2046)
  have hfinite : product (nearest significand 1) (tenTo k) < infinityMagnitude := by
    refine nearest_lt_infinity (Nat.mul_pos (denominator_pos _) (denominator_pos _)) ?_
    rw [Nat.cast_mul, Nat.cast_mul, mul_div_mul_comm, ← value_eq_div, ← value_eq_div]
    exact hproduct
  unfold scaleUp?
  split
  · rfl
  · simp [Nat.not_lt.mpr hk, hfinite]

theorem scaled?_isSome {significand : Nat} {exponent : Int} (hexponent : exponent ≤ 308)
    (hle : (significand : ℚ) * 10 ^ exponent.toNat ≤ safeBound) :
    (scaled? significand exponent).isSome = true := by
  unfold scaled?
  split
  · next hpos =>
    have habs : exponent.natAbs = exponent.toNat := by omega
    rw [habs]
    exact scaleUp?_isSome (by omega) hle
  · rfl

/-! ## Taking digits -/

theorem absorb_le (cs : List Char) {significand : Nat} (hle : significand ≤ maxUnsigned) :
    (absorb significand cs).1 ≤ maxUnsigned := by
  induction cs generalizing significand with
  | nil => exact hle
  | cons c cs ih =>
    simp only [absorb]
    split
    · next hnext => exact ih hnext
    · exact hle

/-- The digits that are left out only make the number larger. -/
theorem absorb_spec (significand : Nat) (cs : List Char) :
    (absorb significand cs).2 ≤ cs.length ∧
      (absorb significand cs).1 * 10 ^ (cs.length - (absorb significand cs).2) ≤
        significand * 10 ^ cs.length + Numeral.value cs := by
  induction cs generalizing significand with
  | nil => simp [absorb]
  | cons c cs ih =>
    simp only [absorb]
    split
    · obtain ⟨htaken, hle⟩ := ih (10 * significand + (c.toNat - 0x30))
      refine ⟨by simpa using htaken, ?_⟩
      rw [List.length_cons, Numeral.value_cons, Nat.add_sub_add_right, Nat.pow_succ]
      refine hle.trans (Nat.le_of_eq ?_)
      ring
    · simp

/-- Digits that fit are all taken. -/
theorem absorb_all {cs : List Char} (hcs : cs.all Char.isDigit = true) {significand : Nat}
    (hfit : (significand + 1) * 10 ^ cs.length ≤ maxUnsigned + 1) :
    (absorb significand cs).2 = cs.length := by
  induction cs generalizing significand with
  | nil => rfl
  | cons c cs ih =>
    rw [List.all_cons, Bool.and_eq_true] at hcs
    have hdigit := Numeral.digit_le hcs.1
    have hpow : 1 ≤ 10 ^ cs.length := Nat.one_le_pow _ _ (by decide)
    rw [List.length_cons, Nat.pow_succ] at hfit
    have hfit' : (10 * significand + (c.toNat - 0x30) + 1) * 10 ^ cs.length ≤ maxUnsigned + 1 := by
      refine le_trans ?_ hfit
      nlinarith
    have hnext : 10 * significand + (c.toNat - 0x30) ≤ maxUnsigned := by nlinarith
    simp only [absorb, if_pos hnext, List.length_cons, ih hcs.2 hfit']

/-! ## Numerals -/

/-- Where digits behind the point are left out, what remains to be scaled is below the bound. With
more places taken than the power gives back, nothing is multiplied, and a word of 64 bits is far
below the bound. -/
theorem taken_le_safeBound {significand places digits total : Nat} {power : Int}
    (htaken : places ≤ digits) (hfits : significand ≤ maxUnsigned)
    (htotal : significand * 10 ^ (digits - places) ≤ total)
    (hle : (total : ℚ) * 10 ^ (power - digits) ≤ safeBound) :
    (significand : ℚ) * 10 ^ (power - places).toNat ≤ safeBound := by
  rcases le_or_gt (places : ℤ) power with hup | hdown
  · have htotal' : (significand : ℚ) * 10 ^ (digits - places) ≤ total := by exact_mod_cast htotal
    refine le_trans ?_ hle
    calc (significand : ℚ) * 10 ^ (power - places).toNat
        = significand * 10 ^ (digits - places) * 10 ^ (power - digits) := by
          rw [mul_assoc, ← zpow_natCast, ← zpow_natCast, ← zpow_add₀ (by norm_num)]
          congr 2
          omega
      _ ≤ total * 10 ^ (power - digits) := mul_le_mul_of_nonneg_right htotal' (by positivity)
  · have hzero : (power - places).toNat = 0 := by omega
    rw [hzero, pow_zero, mul_one]
    have hword : significand ≤ 10 ^ 20 := hfits.trans (by norm_num [maxUnsigned])
    exact (Nat.cast_le.mpr hword).trans (ten_pow_le_safeBound (by norm_num))

/-- A numeral of a number below the bound is read as some double, whatever digits are left out. -/
theorem toDouble?_literal_isSome {n : Numeral} (h : n.WellFormed) (hwhole : n.whole.length ≤ 16)
    {power : Int} (hpower : (n.power.bind Numeral.int?).getD 0 = power) (hplace : power ≤ 308)
    (hle : (Numeral.value (n.whole ++ n.fraction) : ℚ) * 10 ^ (power - n.fraction.length) ≤
      safeBound) : (toDouble? n.literal).isSome = true := by
  have hleading : (absorb 0 n.whole).2 = n.whole.length := by
    apply absorb_all h.whole_digits.2
    have hpow : 10 ^ n.whole.length ≤ 10 ^ 16 := Nat.pow_le_pow_right (by decide) hwhole
    simp only [maxUnsigned]
    omega
  obtain ⟨-, hvalue⟩ := absorb_spec 0 n.whole
  rw [hleading, Nat.sub_self, Nat.pow_zero, Nat.mul_one, Nat.zero_mul, Nat.zero_add] at hvalue
  obtain ⟨htaken, hsignificand⟩ := absorb_spec (absorb 0 n.whole).1 n.fraction
  have hfits : (absorb (absorb 0 n.whole).1 n.fraction).1 ≤ maxUnsigned :=
    absorb_le _ (absorb_le _ (Nat.zero_le _))
  simp only [toDouble?, ofLiteral_literal h, hpower, hleading, Nat.sub_self, Option.isSome_map]
  generalize absorb (absorb 0 n.whole).1 n.fraction = taken at *
  obtain ⟨significand, places⟩ := taken
  simp only at htaken hsignificand hfits
  have hexponent : Int.ofNat 0 - Int.ofNat places + power = power - places := by
    simp only [Int.ofNat_eq_natCast]
    omega
  rw [hexponent]
  refine scaled?_isSome (by omega) ?_
  refine taken_le_safeBound htaken hfits ?_ hle
  rw [Numeral.value_append]
  exact hsignificand.trans (Nat.add_le_add_right (Nat.mul_le_mul_right _ hvalue) _)

/-- A numeral without a power of ten is small if it has few digits before the point. -/
theorem toDouble?_plain_isSome {n : Numeral} (h : n.WellFormed) (hwhole : n.whole.length ≤ 16)
    (hpower : n.power = none) : (toDouble? n.literal).isSome = true := by
  have hnone : (n.power.bind Numeral.int?).getD 0 = 0 := by rw [hpower]; rfl
  refine toDouble?_literal_isSome h hwhole hnone (by decide) ?_
  have hdigits : (n.whole ++ n.fraction).all Char.isDigit = true := by
    rw [List.all_append, h.whole_digits.2, h.fraction_digits]
    rfl
  have hvalue : (Numeral.value (n.whole ++ n.fraction) : ℚ) ≤
      10 ^ n.whole.length * 10 ^ n.fraction.length := by
    have hlt := Numeral.value_lt hdigits
    rw [List.length_append, pow_add] at hlt
    exact_mod_cast hlt.le
  have hpow : (0 : ℚ) < 10 ^ n.fraction.length := by positivity
  rw [zero_sub, zpow_neg, zpow_natCast, ← div_eq_mul_inv, div_le_iff₀ hpow]
  refine hvalue.trans (mul_le_mul_of_nonneg_right ?_ hpow.le)
  have hsafe := ten_pow_le_safeBound (hwhole.trans (by decide))
  rwa [Nat.cast_pow, Nat.cast_ofNat] at hsafe

end TraceWeave.Json
