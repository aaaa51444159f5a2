import TraceWeave.Number.Style
import Mathlib.Tactic.Linarith
import Mathlib.Tactic.Ring

/-!
# Digits and their value

* `value_append`, `value_lt`: the value of a run of digits, and its bound;
* `pow_le_of_pos`, `ofNat_head`: the numeral of a positive number has no zero in front;
* `ofNat_eq_significant`, `significant_eq_cons`: the significant digits of a decimal, and the zeros
  behind them.
-/

namespace TraceWeave.Text.Numeral

/-- The value of digits behind others. -/
theorem foldl_eq (n : Nat) (cs : List Char) :
    cs.foldl (fun n c => 10 * n + (c.toNat - 0x30)) n = n * 10 ^ cs.length + value cs := by
  induction cs generalizing n with
  | nil => simp [value]
  | cons c cs ih =>
    have hvalue : value (c :: cs) = (c.toNat - 0x30) * 10 ^ cs.length + value cs := by
      rw [value, List.foldl_cons, ih, Nat.mul_zero, Nat.zero_add]
    rw [List.foldl_cons, ih, hvalue, List.length_cons]
    ring

theorem value_append (cs ds : List Char) :
    value (cs ++ ds) = value cs * 10 ^ ds.length + value ds := by
  have hfold := foldl_eq (value cs) ds
  rwa [value, ← List.foldl_append] at hfold

theorem value_cons (c : Char) (cs : List Char) :
    value (c :: cs) = (c.toNat - 0x30) * 10 ^ cs.length + value cs := by
  rw [value, List.foldl_cons, foldl_eq, Nat.mul_zero, Nat.zero_add]

theorem value_zeros (n : Nat) : value (List.replicate n '0') = 0 := by
  induction n with
  | zero => rfl
  | succ n ih => simp [List.replicate_succ, value_cons, ih]

theorem digit_le {c : Char} (hc : c.isDigit = true) : c.toNat - 0x30 ≤ 9 := by
  have hle : c.toNat ≤ 57 := by
    simp only [Char.isDigit, Bool.and_eq_true, decide_eq_true_eq] at hc
    exact hc.2
  omega

theorem value_lt {cs : List Char} (hcs : cs.all Char.isDigit = true) :
    value cs < 10 ^ cs.length := by
  induction cs with
  | nil => decide
  | cons c cs ih =>
    rw [List.all_cons, Bool.and_eq_true] at hcs
    have hdigit := digit_le hcs.1
    have hrest := ih hcs.2
    rw [value_cons, List.length_cons, Nat.pow_succ]
    nlinarith

theorem length_ofNat_pos (n : Nat) : 0 < (ofNat n).length :=
  Nat.length_toDigits_pos

/-- The first digit of a positive number stands for its power of ten. -/
theorem pow_le_of_pos {n : Nat} (hn : 0 < n) : 10 ^ ((ofNat n).length - 1) ≤ n := by
  by_contra hnot
  rcases Nat.eq_zero_or_pos ((ofNat n).length - 1) with hzero | hpos
  · rw [hzero] at hnot
    omega
  · have hle := (Nat.length_toDigits_le_iff (by decide) hpos).mpr (Nat.lt_of_not_le hnot)
    have hlength := length_ofNat_pos n
    rw [ofNat] at hlength hle
    omega

/-- The numeral of a positive number has no zero in front. -/
theorem ofNat_head {n : Nat} (hn : 0 < n) {c : Char} {cs : List Char} (h : ofNat n = c :: cs) :
    c ≠ '0' := by
  rintro rfl
  have hall := all_isDigit_ofNat n
  have hvalue := value_ofNat n
  have hle := pow_le_of_pos hn
  rw [h, List.all_cons, Bool.and_eq_true] at hall
  rw [h, value_cons] at hvalue
  rw [h, List.length_cons, Nat.add_sub_cancel] at hle
  have hlt := value_lt hall.2
  simp at hvalue
  omega

end TraceWeave.Text.Numeral

namespace TraceWeave.Number.Style

open TraceWeave.Text

/-- The digits of a decimal are its significant ones with zeros behind them. -/
theorem ofNat_eq_significant (d : Decimal) :
    ∃ zeros, Numeral.ofNat d.digits = significant d ++ List.replicate zeros '0' := by
  have hsplit := List.takeWhile_append_dropWhile (p := (· == '0'))
    (l := (Numeral.ofNat d.digits).reverse)
  refine ⟨((Numeral.ofNat d.digits).reverse.takeWhile (· == '0')).length, ?_⟩
  have hzeros : (Numeral.ofNat d.digits).reverse.takeWhile (· == '0') =
      List.replicate ((Numeral.ofNat d.digits).reverse.takeWhile (· == '0')).length '0' := by
    rw [List.eq_replicate_iff]
    refine ⟨rfl, ?_⟩
    intro c hc
    have hall := List.all_takeWhile (p := (· == '0')) (l := (Numeral.ofNat d.digits).reverse)
    simpa using List.all_eq_true.mp hall c hc
  have hreverse := congrArg List.reverse hsplit
  rw [List.reverse_append, List.reverse_reverse, hzeros, List.reverse_replicate] at hreverse
  exact hreverse.symm

/-- The significant digits of a positive decimal: there are some, and the first is no zero. -/
theorem significant_eq_cons {d : Decimal} (hd : 0 < d.digits) :
    ∃ c cs, significant d = c :: cs ∧ c ≠ '0' ∧ (c :: cs).all Char.isDigit = true := by
  obtain ⟨zeros, hzeros⟩ := ofNat_eq_significant d
  have hall := Numeral.all_isDigit_ofNat d.digits
  have hvalue := Numeral.value_ofNat d.digits
  rw [hzeros] at hall hvalue
  rw [List.all_append, Bool.and_eq_true] at hall
  cases hsig : significant d with
  | nil =>
    rw [hsig, List.nil_append, Numeral.value_zeros] at hvalue
    omega
  | cons c cs =>
    rw [hsig] at hzeros hall
    exact ⟨c, cs, rfl, Numeral.ofNat_head hd hzeros, hall.1⟩

end TraceWeave.Number.Style
