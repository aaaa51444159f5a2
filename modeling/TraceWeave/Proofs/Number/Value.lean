import TraceWeave.Number.Binary64
import Mathlib.Algebra.Order.Field.Power
import Mathlib.Data.Rat.Cast.Order
import Mathlib.Tactic.FieldSimp
import Mathlib.Tactic.Linarith
import Mathlib.Tactic.NormNum
import Mathlib.Tactic.Positivity
import Mathlib.Tactic.Ring

/-!
# Rounding to a double, in rational numbers

A finite magnitude stands for a rational number, its `value`. The nearest magnitude to a fraction
is found at the scale at which the fraction has 53 digits; `Rounded` says what the digits at that
scale are.

* `nearest_rounded`: how the nearest magnitude is made up;
* `nearest_lt_infinity`: what is not rounded to infinity;
* `le_safeBound_of_nearest`: what is rounded to a magnitude below the three largest ones;
* `value_nearest_le`: how much a whole number is rounded up.
-/

namespace TraceWeave.Binary64

open TraceWeave.Number

/-! ## Values -/

/-- The number that the last digit of a significand stands for. -/
def unit (scale : Nat) : ℚ := 2 ^ ((scale : ℤ) - 1075)

/-- The number that a finite magnitude stands for. -/
def value (m : Nat) : ℚ := significand m * unit (scale m)

theorem unit_pos (s : Nat) : 0 < unit s := by
  unfold unit
  positivity

theorem unit_succ (s : Nat) : unit (s + 1) = 2 * unit s := by
  unfold unit
  rw [← zpow_one_add₀ (by norm_num)]
  congr 1
  push_cast
  ring

theorem two_mul_unit_le {s t : Nat} (h : s < t) : 2 * unit s ≤ unit t := by
  rw [← unit_succ]
  unfold unit
  exact zpow_le_zpow_right₀ (by norm_num) (by omega)

theorem unit_eq_div (s : Nat) :
    unit s = (Nat.pow 2 (s - 1075) : ℕ) / (Nat.pow 2 (1075 - s) : ℕ) := by
  have hsplit : (s : ℤ) - 1075 = (s - 1075 : ℕ) - (1075 - s : ℕ) := by omega
  rw [unit, hsplit, zpow_sub₀ (by norm_num), zpow_natCast, zpow_natCast]
  simp only [Nat.pow_eq, Nat.cast_pow, Nat.cast_ofNat]

theorem value_eq_div (m : Nat) : value m = numerator m / denominator m := by
  simp only [value, unit_eq_div, numerator, denominator, Nat.cast_mul, mul_div_assoc]

/-! ## The scale of a fraction -/

theorem two_pow_log2_le {n : Nat} (hn : 0 < n) : ((2 : ℚ) ^ (n.log2 : ℤ)) ≤ n := by
  rw [zpow_natCast]
  exact_mod_cast Nat.log2_self_le hn.ne'

theorem lt_two_pow_log2 (n : Nat) : (n : ℚ) < 2 ^ ((n.log2 : ℤ) + 1) := by
  rw [← Nat.cast_succ, zpow_natCast]
  exact_mod_cast Nat.lt_log2_self

section Scale

variable {num den : Nat}

/-- The power of two below a fraction, from the bits of its parts. -/
theorem exponent_spec (hnum : 0 < num) (hden : 0 < den) :
    let excess : Nat := if den * Nat.pow 2 num.log2 ≤ num * Nat.pow 2 den.log2 then 0 else 1
    (2 : ℚ) ^ ((num.log2 : ℤ) - den.log2 - excess) ≤ num / den ∧
      (num / den : ℚ) < 2 ^ ((num.log2 : ℤ) - den.log2 - excess + 1) := by
  intro excess
  have hden' : (0 : ℚ) < den := by exact_mod_cast hden
  have hlow := two_pow_log2_le hnum
  have hhigh := lt_two_pow_log2 num
  have hlow' := two_pow_log2_le hden
  have hhigh' := lt_two_pow_log2 den
  have ha : (0 : ℚ) < 2 ^ (num.log2 : ℤ) := by positivity
  have hb : (0 : ℚ) < 2 ^ (den.log2 : ℤ) := by positivity
  have hsub : ∀ a b : ℤ, (2 : ℚ) ^ (a - b) = 2 ^ a / 2 ^ b :=
    fun a b => zpow_sub₀ (by norm_num) a b
  have hadd : ∀ a : ℤ, (2 : ℚ) ^ (a + 1) = 2 ^ a * 2 := fun a => zpow_add_one₀ (by norm_num) a
  rw [hadd] at hhigh hhigh'
  by_cases hle : den * Nat.pow 2 num.log2 ≤ num * Nat.pow 2 den.log2
  · have hle' : (den : ℚ) * 2 ^ (num.log2 : ℤ) ≤ num * 2 ^ (den.log2 : ℤ) := by
      rw [zpow_natCast, zpow_natCast]
      exact_mod_cast hle
    simp only [excess, if_pos hle, Nat.cast_zero, sub_zero, hsub, hadd]
    constructor
    · rw [div_le_div_iff₀ hb hden']
      linarith
    · rw [div_lt_iff₀ hden', div_mul_eq_mul_div, div_mul_eq_mul_div, lt_div_iff₀ hb]
      nlinarith
  · have hlt : (num : ℚ) * 2 ^ (den.log2 : ℤ) < den * 2 ^ (num.log2 : ℤ) := by
      rw [zpow_natCast, zpow_natCast]
      exact_mod_cast Nat.lt_of_not_le hle
    simp only [excess, if_neg hle, Nat.cast_one, sub_add_cancel]
    rw [sub_sub, hsub, hsub, hadd]
    constructor
    · rw [div_le_div_iff₀ (by positivity) hden']
      nlinarith
    · rw [div_lt_div_iff₀ hden' hb]
      linarith

theorem scaleOf_pos : 1 ≤ scaleOf num den :=
  Nat.le_max_left _ _

theorem lt_scaleOf (hnum : 0 < num) (hden : 0 < den) :
    (num / den : ℚ) < 2 ^ 53 * unit (scaleOf num den) := by
  refine (exponent_spec hnum hden).2.trans_le ?_
  have hunit : (2 : ℚ) ^ 53 * unit (scaleOf num den) = 2 ^ ((scaleOf num den : ℤ) - 1022) := by
    rw [unit, ← zpow_natCast, ← zpow_add₀ (by norm_num)]
    congr 1
    push_cast
    ring
  rw [hunit]
  refine zpow_le_zpow_right₀ (by norm_num) ?_
  simp only [scaleOf]
  omega

theorem scaleOf_le (hnum : 0 < num) (hden : 0 < den) (hscale : 1 < scaleOf num den) :
    2 ^ 52 * unit (scaleOf num den) ≤ (num / den : ℚ) := by
  refine le_trans ?_ (exponent_spec hnum hden).1
  have hunit : (2 : ℚ) ^ 52 * unit (scaleOf num den) = 2 ^ ((scaleOf num den : ℤ) - 1023) := by
    rw [unit, ← zpow_natCast, ← zpow_add₀ (by norm_num)]
    congr 1
    push_cast
    ring
  rw [hunit]
  refine zpow_le_zpow_right₀ (by norm_num) ?_
  simp only [scaleOf] at hscale ⊢
  omega

end Scale

/-! ## Rounding -/

/-- The distance between a quotient and its rounding. -/
theorem roundDiv_error (tie : Tie) (num : Nat) {den : Nat} (hden : 0 < den) :
    |(roundDiv tie num den : ℚ) - num / den| ≤ 1 / 2 := by
  have hden' : (0 : ℚ) < den := by exact_mod_cast hden
  obtain ⟨hlow, hhigh⟩ := roundDiv_within_half tie num hden
  have hlow' : 2 * (num : ℚ) ≤ 2 * (roundDiv tie num den * den) + den := by exact_mod_cast hlow
  have hhigh' : 2 * (roundDiv tie num den * den : ℚ) ≤ 2 * num + den := by exact_mod_cast hhigh
  have heq : (num / den : ℚ) * den = num := div_mul_cancel₀ _ hden'.ne'
  rw [abs_le]
  constructor <;> nlinarith

/-- Digits at a scale that stand for a fraction: as many as a significand has, and as close to the
fraction as digits at the scale can be. -/
structure Rounded (q : ℚ) (s digits : Nat) : Prop where
  scale_pos : 1 ≤ s
  lt : q < 2 ^ 53 * unit s
  le_of_normal : 1 < s → 2 ^ 52 * unit s ≤ q
  error : |digits * unit s - q| ≤ unit s / 2

theorem nearest_rounded {num den : Nat} (hnum : 0 < num) (hden : 0 < den) :
    ∃ s digits, Rounded (num / den) s digits ∧
      nearest num den = min ((s - 1) * 0x10_0000_0000_0000 + digits) infinityMagnitude := by
  set s := scaleOf num den with hs
  set digits := roundDiv .toEven (num * Nat.pow 2 (1075 - s)) (den * Nat.pow 2 (s - 1075)) with hd
  refine ⟨s, digits, ⟨scaleOf_pos, lt_scaleOf hnum hden, scaleOf_le hnum hden, ?_⟩, ?_⟩
  · have hscaled : ((num * Nat.pow 2 (1075 - s) : ℕ) / (den * Nat.pow 2 (s - 1075) : ℕ) : ℚ) *
        unit s = num / den := by
      rw [unit_eq_div]
      have hden' : (den : ℚ) ≠ 0 := by exact_mod_cast hden.ne'
      have hup : ((Nat.pow 2 (1075 - s) : ℕ) : ℚ) ≠ 0 :=
        Nat.cast_ne_zero.mpr (Nat.pow_pos Nat.two_pos).ne'
      have hdown : ((Nat.pow 2 (s - 1075) : ℕ) : ℚ) ≠ 0 :=
        Nat.cast_ne_zero.mpr (Nat.pow_pos Nat.two_pos).ne'
      rw [Nat.cast_mul, Nat.cast_mul]
      field_simp
    have hpow : 0 < den * Nat.pow 2 (s - 1075) := Nat.mul_pos hden (Nat.pow_pos (by decide))
    have herror := roundDiv_error .toEven (num * Nat.pow 2 (1075 - s)) hpow
    rw [← hd] at herror
    have hpos := unit_pos s
    calc |digits * unit s - num / den|
        = |(digits : ℚ) - (num * Nat.pow 2 (1075 - s) : ℕ) / (den * Nat.pow 2 (s - 1075) : ℕ)| *
            unit s := by rw [← hscaled, ← sub_mul, abs_mul, abs_of_pos hpos]
      _ ≤ 1 / 2 * unit s := mul_le_mul_of_nonneg_right herror hpos.le
      _ = unit s / 2 := by ring
  · rw [nearest, if_neg hnum.ne']

namespace Rounded

variable {q : ℚ} {s digits : Nat}

theorem digits_le (h : Rounded q s digits) : digits ≤ 2 ^ 53 := by
  have hpos := unit_pos s
  have hhigh := (abs_le.mp h.error).2
  have hlt := h.lt
  have hdigits : (digits : ℚ) < 2 ^ 53 + 1 := by
    by_contra hnot
    rw [not_lt] at hnot
    nlinarith
  have hnat : digits < 2 ^ 53 + 1 := by exact_mod_cast hdigits
  omega

theorem le_digits (h : Rounded q s digits) (hs : 1 < s) : 2 ^ 52 ≤ digits := by
  have hpos := unit_pos s
  have hlow := (abs_le.mp h.error).1
  have hle := h.le_of_normal hs
  have hdigits : (2 : ℚ) ^ 52 - 1 < digits := by
    by_contra hnot
    rw [not_lt] at hnot
    nlinarith
  have hnat : (2 : ℚ) ^ 52 < (digits + 1 : ℕ) := by
    push_cast
    linarith
  have hnat' : 2 ^ 52 < digits + 1 := by exact_mod_cast hnat
  omega

/-- A carry out of the digits runs into the scale. -/
theorem value_packed (h : Rounded q s digits) :
    value ((s - 1) * 0x10_0000_0000_0000 + digits) = digits * unit s := by
  have hpos := h.scale_pos
  have hle := h.digits_le
  by_cases hcarry : digits = 2 ^ 53
  · have hscale : scale ((s - 1) * 0x10_0000_0000_0000 + digits) = s + 1 := by
      simp only [scale]
      omega
    have hsignificand : significand ((s - 1) * 0x10_0000_0000_0000 + digits) = 2 ^ 52 := by
      simp only [significand, hscale]
      omega
    rw [value, hscale, hsignificand, unit_succ, hcarry]
    push_cast
    ring
  · have hscale : scale ((s - 1) * 0x10_0000_0000_0000 + digits) = s := by
      rcases Nat.lt_or_ge 1 s with hs | hs
      · have hnormal := h.le_digits hs
        simp only [scale]
        omega
      · simp only [scale]
        omega
    have hsignificand : significand ((s - 1) * 0x10_0000_0000_0000 + digits) = digits := by
      simp only [significand, hscale]
      omega
    rw [value, hscale, hsignificand]

end Rounded

/-- Below the number halfway between the largest double and the next power of two, nothing is
rounded to infinity. -/
theorem nearest_lt_infinity {num den : Nat} (hden : 0 < den)
    (hlt : (num / den : ℚ) < (2 ^ 53 - 1 / 2) * unit 2046) :
    nearest num den < infinityMagnitude := by
  rcases Nat.eq_zero_or_pos num with rfl | hnum
  · simp [nearest, infinityMagnitude]
  · obtain ⟨s, digits, hrounded, heq⟩ := nearest_rounded hnum hden
    have hle := hrounded.digits_le
    rw [heq, infinityMagnitude]
    rcases Nat.lt_trichotomy s 2046 with hs | rfl | hs
    · omega
    · have hdigits : digits < 2 ^ 53 := by
        have hpos := unit_pos 2046
        have hhigh := (abs_le.mp hrounded.error).2
        have hdigits : (digits : ℚ) < 2 ^ 53 := by
          by_contra hnot
          rw [not_lt] at hnot
          nlinarith
        exact_mod_cast hdigits
      omega
    · exfalso
      have hnormal := hrounded.le_of_normal (by omega)
      have hunit := two_mul_unit_le hs
      have hpos := unit_pos 2046
      nlinarith

/-- Numbers up to here may be put together from two that are rounded, and rounded again, without
coming to infinity. -/
def safeBound : ℚ := (2 ^ 53 - 7 / 2) * unit 2046

theorem safeBound_pos : 0 < safeBound :=
  mul_pos (by norm_num) (unit_pos 2046)

theorem safeBound_lt : safeBound < (2 ^ 53 - 1 / 2) * unit 2046 :=
  mul_lt_mul_of_pos_right (by norm_num) (unit_pos 2046)

/-- What is rounded to a magnitude below the three largest ones is well below the largest. -/
theorem le_safeBound_of_nearest {num den : Nat} (hden : 0 < den)
    (hle : nearest num den + 4 ≤ infinityMagnitude) : (num / den : ℚ) ≤ safeBound := by
  rcases Nat.eq_zero_or_pos num with rfl | hnum
  · rw [Nat.cast_zero, zero_div]
    exact safeBound_pos.le
  · obtain ⟨s, digits, hrounded, heq⟩ := nearest_rounded hnum hden
    have hdigits := hrounded.digits_le
    have hlow := (abs_le.mp hrounded.error).1
    have hpos := unit_pos s
    rw [heq] at hle
    simp only [infinityMagnitude] at hle
    unfold safeBound
    rcases Nat.lt_trichotomy s 2046 with hs | rfl | hs
    · have hunit := two_mul_unit_le hs
      have hdigits' : (digits : ℚ) ≤ 2 ^ 53 := by exact_mod_cast hdigits
      nlinarith
    · have hsmall : digits + 4 ≤ 2 ^ 53 := by omega
      have hsmall' : (digits : ℚ) + 4 ≤ 2 ^ 53 := by exact_mod_cast hsmall
      nlinarith
    · have hnormal := hrounded.le_digits (by omega)
      omega

theorem value_le_safeBound {m : Nat} (hle : m + 4 ≤ infinityMagnitude) : value m ≤ safeBound := by
  have hpos := unit_pos (scale m)
  simp only [infinityMagnitude] at hle
  rcases Nat.lt_or_ge (scale m) 2046 with hscale | hscale
  · have hunit := two_mul_unit_le hscale
    have hsignificand : significand m ≤ 2 ^ 53 := by
      simp only [significand, scale]
      omega
    have hsignificand' : (significand m : ℚ) ≤ 2 ^ 53 := by exact_mod_cast hsignificand
    rw [value, safeBound]
    nlinarith
  · have heq : scale m = 2046 := by
      simp only [scale] at hscale ⊢
      omega
    have hsignificand : significand m + 4 ≤ 2 ^ 53 := by
      simp only [significand, heq]
      omega
    have hsignificand' : (significand m : ℚ) + 4 ≤ 2 ^ 53 := by exact_mod_cast hsignificand
    rw [heq] at hpos
    rw [value, safeBound, heq]
    nlinarith

/-- A whole number is rounded up by no more than one part in `2 ^ 53`. -/
theorem value_nearest_le {n : Nat} (hle : (n : ℚ) ≤ safeBound) :
    value (nearest n 1) ≤ n * (1 + 1 / 2 ^ 53) := by
  rcases Nat.eq_zero_or_pos n with rfl | hn
  · simp [nearest, value, significand, scale]
  · obtain ⟨s, digits, hrounded, heq⟩ := nearest_rounded hn Nat.one_pos
    have hfinite : nearest n 1 < infinityMagnitude := by
      refine nearest_lt_infinity Nat.one_pos ?_
      rw [Nat.cast_one, div_one]
      exact hle.trans_lt safeBound_lt
    rw [heq] at hfinite ⊢
    rw [Nat.min_eq_left (by omega), hrounded.value_packed]
    -- At the lowest scale there are only numbers below one.
    have hnormal : 1 < s := by
      by_contra hnot
      have hpos := hrounded.scale_pos
      have hs : s = 1 := by omega
      have hlt := hrounded.lt
      have hsmall : (2 : ℚ) ^ 53 * unit 1 ≤ 1 := by
        rw [unit, ← zpow_natCast, ← zpow_add₀ (by norm_num)]
        exact zpow_le_one_of_nonpos₀ (by norm_num) (by norm_num)
      have hone : (1 : ℚ) ≤ n := by exact_mod_cast hn
      rw [hs, Nat.cast_one, div_one] at hlt
      linarith
    have hle := hrounded.le_of_normal hnormal
    have hhigh := (abs_le.mp hrounded.error).2
    rw [Nat.cast_one, div_one] at hle hhigh
    linarith

end TraceWeave.Binary64
