import TraceWeave.Proofs.Json.Scaling

/-!
# Written doubles are read

A finite double is written by the fewest digits that round to it. Its value is then close to that
of the double, so the numeral is read as some double: for all but the three largest magnitudes the
value is no larger than `safeBound`, and the three are tried.

* `shortest_le`, `firstPlace_le`: how large the written decimal is;
* `decimalNumeral_literal`, `decimalNumeral_wellFormed`: what is written is a numeral;
* `finite_written`: what is written for a finite double is a numeral that is read.
-/

namespace TraceWeave.Json

open TraceWeave.Number TraceWeave.Text TraceWeave.Binary64

/-! ## Decimals -/

theorem numerator_div_denominator (d : Decimal) :
    (d.numerator / d.denominator : ℚ) = d.digits * 10 ^ d.exponent := by
  have hsplit : d.exponent = d.exponent.toNat - (-d.exponent).toNat := by omega
  have hpow : (10 : ℚ) ^ d.exponent = 10 ^ d.exponent.toNat / 10 ^ (-d.exponent).toNat := by
    conv_lhs => rw [hsplit]
    rw [zpow_sub₀ (by norm_num), zpow_natCast, zpow_natCast]
  rw [hpow, Decimal.numerator, Decimal.denominator, Nat.pow_eq, Nat.pow_eq, Nat.cast_mul,
    Nat.cast_pow, Nat.cast_pow, Nat.cast_ofNat, mul_div_assoc]

theorem exact_value (m : Nat) :
    ((Decimal.exact m).numerator / (Decimal.exact m).denominator : ℚ) = value m := by
  rw [numerator_div_denominator, value_eq_div]
  simp only [Decimal.exact, denominator, Nat.pow_eq, Nat.cast_mul, Nat.cast_pow, Nat.cast_ofNat]
  have hten : (10 : ℚ) ^ (1075 - scale m) = 2 ^ (1075 - scale m) * 5 ^ (1075 - scale m) := by
    rw [← mul_pow]
    norm_num
  rw [zpow_neg, zpow_natCast, hten, ← div_eq_mul_inv,
    mul_div_mul_right _ _ (pow_ne_zero _ (by norm_num))]

/-- What is written for a magnitude below the three largest ones. -/
theorem shortest_le (tie : Tie) {m : Nat} (hm : m + 4 ≤ infinityMagnitude) :
    (Decimal.shortest tie m).digits * 10 ^ (Decimal.shortest tie m).exponent ≤ safeBound := by
  rw [← numerator_div_denominator]
  unfold Decimal.shortest
  cases hfewest : Decimal.fewest? tie m with
  | none =>
    rw [Option.getD_none, exact_value]
    exact value_le_safeBound hm
  | some d =>
    have hback : nearest d.numerator d.denominator = m := by
      simpa [Decimal.readsBack] using Decimal.readsBack_of_mem_fewest hfewest
    rw [Option.getD_some]
    exact le_safeBound_of_nearest (Nat.pow_pos (by decide)) (hback ▸ hm)

theorem shortest_pos (tie : Tie) {m : Nat} (hm : 0 < m) :
    0 < (Decimal.shortest tie m).digits := by
  unfold Decimal.shortest
  cases hfewest : Decimal.fewest? tie m with
  | none =>
    have hsignificand : 0 < significand m := by
      simp only [significand, scale]
      omega
    exact Nat.mul_pos (Nat.mul_pos hsignificand (Nat.pow_pos (by decide)))
      (Nat.pow_pos (by decide))
  | some d =>
    have hback : nearest d.numerator d.denominator = m := by
      simpa [Decimal.readsBack] using Decimal.readsBack_of_mem_fewest hfewest
    rw [Option.getD_some]
    apply Nat.pos_of_ne_zero
    intro hzero
    simp [Decimal.numerator, hzero, nearest] at hback
    omega

/-- The place of the first digit of a decimal. -/
def firstPlace (d : Decimal) : Int :=
  d.exponent + (Numeral.ofNat d.digits).length - 1

/-- No number below the bound has a first digit beyond the place 308. -/
theorem firstPlace_le (tie : Tie) {m : Nat} (hpos : 0 < m) (hm : m + 4 ≤ infinityMagnitude) :
    firstPlace (Decimal.shortest tie m) ≤ 308 := by
  unfold firstPlace
  set d := Decimal.shortest tie m with hd
  have hle : (d.digits : ℚ) * 10 ^ d.exponent ≤ safeBound := shortest_le tie hm
  have hfirst := Numeral.pow_le_of_pos (shortest_pos tie hpos)
  rw [← hd] at hfirst
  have hlength := Numeral.length_ofNat_pos d.digits
  have hfirst' : (10 : ℚ) ^ ((Numeral.ofNat d.digits).length - 1) ≤ d.digits := by
    exact_mod_cast hfirst
  by_contra hnot
  have hplace : (10 : ℚ) ^ 309 ≤ d.digits * 10 ^ d.exponent := by
    calc (10 : ℚ) ^ 309 = 10 ^ (309 : ℤ) := by rw [← zpow_natCast]; rfl
      _ ≤ 10 ^ (((Numeral.ofNat d.digits).length - 1 : ℕ) + d.exponent) :=
        zpow_le_zpow_right₀ (by norm_num) (by omega)
      _ = 10 ^ ((Numeral.ofNat d.digits).length - 1) * 10 ^ d.exponent := by
        rw [zpow_add₀ (by norm_num), zpow_natCast]
      _ ≤ d.digits * 10 ^ d.exponent := mul_le_mul_of_nonneg_right hfirst' (by positivity)
  exact absurd (hplace.trans hle) (not_le.mpr safeBound_lt_ten_pow)

/-! ## Written doubles as numerals -/

/-- The numeral of digits with the point among them. -/
def positionalNumeral (negative : Bool) (digits : List Char) (place : Int) : Numeral :=
  if place < 0 then
    ⟨negative, ['0'], List.replicate (-place - 1).toNat '0' ++ digits, none⟩
  else
    ⟨negative, digits.take (place.toNat + 1) ++
        List.replicate (place.toNat + 1 - digits.length) '0',
      if (digits.drop (place.toNat + 1)).isEmpty then ['0'] else digits.drop (place.toNat + 1),
      none⟩

/-- The digits of a power of ten with their sign. -/
def signedPlace (place : Int) : List Char :=
  (if place < 0 then '-' else '+') :: Numeral.ofNat place.natAbs

/-- The numeral that a positive decimal is written as. -/
def decimalNumeral (negative : Bool) (d : Decimal) : Numeral :=
  if -5 ≤ firstPlace d ∧ firstPlace d < 16 then
    positionalNumeral negative (Style.significant d) (firstPlace d)
  else
    ⟨negative, (Style.significant d).take 1, (Style.significant d).drop 1,
      some (signedPlace (firstPlace d))⟩

theorem padded_one (n : Nat) : Numeral.padded 1 n = Numeral.ofNat n := by
  have hlength := Numeral.length_ofNat_pos n
  have hnone : 1 - (Numeral.ofNat n).length = 0 := by omega
  simp [Numeral.padded, hnone]

theorem positionalNumeral_literal (negative : Bool) {digits : List Char} (hdigits : digits ≠ [])
    (place : Int) : (positionalNumeral negative digits place).literal =
      (if negative then ['-'] else []) ++ Style.positional digits place := by
  unfold positionalNumeral Style.positional
  split
  · have hfraction : List.replicate (-place - 1).toNat '0' ++ digits ≠ [] := by simp [hdigits]
    have hpoint : "0.".toList = ['0', '.'] := rfl
    simp only [Numeral.literal, if_neg hfraction]
    simp [hpoint]
  · have hfraction : (if (digits.drop (place.toNat + 1)).isEmpty then ['0']
        else digits.drop (place.toNat + 1)) ≠ [] := by
      split
      · simp
      · next hdrop => simpa using hdrop
    simp only [Numeral.literal, if_neg hfraction]
    simp

theorem decimalNumeral_literal {m : Nat} (hm : 0 < m) (negative : Bool) :
    (decimalNumeral negative (Decimal.shortest .toEven m)).literal =
      (if negative then ['-'] else []) ++ Style.json.writeMagnitude m := by
  obtain ⟨c, cs, hdigits, -, -⟩ := Style.significant_eq_cons (shortest_pos .toEven hm)
  have hwrite : Style.json.writeMagnitude m =
      let d := Decimal.shortest .toEven m
      if -5 ≤ firstPlace d ∧ firstPlace d < 16 then
        Style.positional (Style.significant d) (firstPlace d)
      else Style.scientific 1 (Style.significant d) (firstPlace d) := if_neg hm.ne'
  rw [hwrite]
  simp only [decimalNumeral]
  split
  · exact positionalNumeral_literal negative (by simp [hdigits]) _
  · rw [hdigits]
    cases cs <;> simp [Numeral.literal, Style.scientific, signedPlace, padded_one]

theorem positionalNumeral_wellFormed {c : Char} {cs : List Char} (hc : c ≠ '0')
    (hall : (c :: cs).all Char.isDigit = true) (negative : Bool) (place : Int) :
    (positionalNumeral negative (c :: cs) place).WellFormed := by
  have hall' := List.all_eq_true.mp hall
  have hzeros : ∀ n, (List.replicate n '0').all Char.isDigit = true := by
    intro n
    rw [List.all_replicate]
    split <;> rfl
  unfold positionalNumeral
  split
  · refine ⟨by simp [IsDigits], by simp, ?_, by simp⟩
    rw [List.all_append, hzeros, hall]
    rfl
  · refine ⟨⟨by simp, ?_⟩, ?_, ?_, by simp⟩
    · rw [List.all_append, hzeros, Bool.and_true]
      exact List.all_eq_true.mpr fun x hx => hall' x (List.mem_of_mem_take hx)
    · intro rest heq
      rw [List.take_succ_cons, List.cons_append] at heq
      exact absurd (List.cons.inj heq).1 hc
    · split
      · rfl
      · exact List.all_eq_true.mpr fun x hx => hall' x (List.mem_of_mem_drop hx)

theorem signedPlace_signed (place : Int) :
    ∃ ds, IsDigits ds ∧ (signedPlace place = '+' :: ds ∨ signedPlace place = '-' :: ds) := by
  refine ⟨Numeral.ofNat place.natAbs,
    ⟨Numeral.ofNat_ne_nil _, Numeral.all_isDigit_ofNat _⟩, ?_⟩
  unfold signedPlace
  split
  · exact .inr rfl
  · exact .inl rfl

theorem decimalNumeral_wellFormed {d : Decimal} (hd : 0 < d.digits) (negative : Bool) :
    (decimalNumeral negative d).WellFormed := by
  obtain ⟨c, cs, hdigits, hc, hall⟩ := Style.significant_eq_cons hd
  unfold decimalNumeral
  rw [hdigits]
  split
  · exact positionalNumeral_wellFormed hc hall negative _
  · rw [List.all_cons, Bool.and_eq_true] at hall
    refine ⟨⟨by simp, by simpa using hall.1⟩, ?_, hall.2, ?_⟩
    · intro rest heq
      exact absurd (List.cons.inj heq).1 hc
    · intro p hp
      obtain rfl := Option.some.inj hp
      exact signedPlace_signed _

/-! ## Reading them -/

/-- The significant digits, with the power of ten of the first one, stand for the decimal. -/
theorem significant_value {d : Decimal} {c : Char} {cs : List Char}
    (hsig : Style.significant d = c :: cs) :
    (Numeral.value (c :: cs) : ℚ) * 10 ^ (firstPlace d - cs.length) =
      d.digits * 10 ^ d.exponent := by
  obtain ⟨zeros, hzeros⟩ := Style.ofNat_eq_significant d
  rw [hsig] at hzeros
  have hvalue := Numeral.value_ofNat d.digits
  rw [hzeros, Numeral.value_append, Numeral.value_zeros, Nat.add_zero,
    List.length_replicate] at hvalue
  have hplace : firstPlace d - cs.length = zeros + d.exponent := by
    rw [firstPlace, hzeros, List.length_append, List.length_cons, List.length_replicate]
    push_cast
    ring
  rw [hplace, zpow_add₀ (by norm_num), zpow_natCast, ← mul_assoc, ← hvalue]
  push_cast
  rfl

theorem int?_signedPlace (place : Int) : Numeral.int? (signedPlace place) = some place := by
  unfold signedPlace
  split
  · simp only [Numeral.int?, Numeral.nat?_ofNat, Option.map_some, Int.ofNat_eq_natCast]
    congr 1
    omega
  · simp only [Numeral.int?, Numeral.nat?_ofNat, Option.map_some, Int.ofNat_eq_natCast]
    congr 1
    omega

theorem length_whole_positional {place : Int} (hplace : place < 16) (negative : Bool)
    (digits : List Char) : (positionalNumeral negative digits place).whole.length ≤ 16 := by
  unfold positionalNumeral
  split
  · simp
  · simp only [List.length_append, List.length_take, List.length_replicate]
    omega

theorem power_positional (negative : Bool) (digits : List Char) (place : Int) :
    (positionalNumeral negative digits place).power = none := by
  unfold positionalNumeral
  split <;> rfl

theorem decimalNumeral_isSome {m : Nat} (hpos : 0 < m) (hm : m + 4 ≤ infinityMagnitude)
    (negative : Bool) :
    (toDouble? (decimalNumeral negative (Decimal.shortest .toEven m)).literal).isSome = true := by
  have hle := shortest_le .toEven hm
  have hplace : firstPlace (Decimal.shortest .toEven m) ≤ 308 := firstPlace_le .toEven hpos hm
  have hdigits := shortest_pos .toEven hpos
  generalize Decimal.shortest .toEven m = d at *
  have hformed := decimalNumeral_wellFormed hdigits negative
  obtain ⟨c, cs, hsig, -, -⟩ := Style.significant_eq_cons hdigits
  rw [decimalNumeral, hsig] at hformed ⊢
  split at hformed
  · next hrange =>
    rw [if_pos hrange]
    exact toDouble?_plain_isSome hformed (length_whole_positional hrange.2 _ _)
      (power_positional _ _ _)
  · next hrange =>
    rw [if_neg hrange]
    refine toDouble?_literal_isSome hformed (by simp) ?_ hplace ?_
    · rw [Option.bind_some, int?_signedPlace, Option.getD_some]
    · rw [← significant_value hsig] at hle
      exact hle

/-- The three largest magnitudes, for which rounding twice comes closest to infinity. -/
theorem largest_isSome (negative : Bool) : ∀ m, m < infinityMagnitude → infinityMagnitude < m + 4 →
    (toDouble? (decimalNumeral negative (Decimal.shortest .toEven m)).literal).isSome = true := by
  intro m hlt hlarge
  have hthree : m = infinityMagnitude - 1 ∨ m = infinityMagnitude - 2 ∨
      m = infinityMagnitude - 3 := by omega
  rcases hthree with rfl | rfl | rfl <;> cases negative <;> decide +kernel

/-- **A finite double is written as a numeral that is read as some double.** -/
theorem finite_written (x : Binary64) (hfinite : x.isFinite = true) :
    ∃ n : Numeral, n.WellFormed ∧ n.literal = Style.json.write x ∧
      (toDouble? n.literal).isSome = true := by
  have hlt : x.magnitude < infinityMagnitude := by simpa [isFinite] using hfinite
  have hwrite : Style.json.write x =
      (if x.isNegative then ['-'] else []) ++ Style.json.writeMagnitude x.magnitude := by
    have hnan : x.isNaN = false := by simpa [isNaN] using hlt.le
    have hinfinite : x.isInfinite = false := by simpa [isInfinite] using hlt.ne
    rw [Style.write, hnan, hinfinite]
    cases x.isNegative <;> rfl
  rcases Nat.eq_zero_or_pos x.magnitude with hzero | hpos
  · have hformed : Numeral.WellFormed ⟨x.isNegative, ['0'], ['0'], none⟩ :=
      ⟨by simp [IsDigits], by simp, by simp, by simp⟩
    refine ⟨_, hformed, ?_, toDouble?_plain_isSome hformed (by simp) rfl⟩
    rw [hwrite, hzero]
    cases x.isNegative <;> rfl
  · refine ⟨decimalNumeral x.isNegative (Decimal.shortest .toEven x.magnitude),
      decimalNumeral_wellFormed (shortest_pos .toEven hpos) _, ?_, ?_⟩
    · rw [decimalNumeral_literal hpos, hwrite]
    · rcases Nat.lt_or_ge infinityMagnitude (x.magnitude + 4) with hlarge | hsmall
      · exact largest_isSome _ _ hlt hlarge
      · exact decimalNumeral_isSome hpos hsmall _

end TraceWeave.Json
