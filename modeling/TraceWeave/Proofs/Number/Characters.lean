import TraceWeave.Proofs.Number.Digits

/-!
# The characters of numbers

Whatever its style, a number is written with digits, the point, the letter before a power of ten and
signs. What else a double is written as is up to the words of the style.

* `Numeral.numeric_ofInt`: the characters of an integer;
* `Style.numeric_writeMagnitude`: the characters of a magnitude, in any style;
* `Style.write_induction`: all that a style writes.
-/

namespace TraceWeave

open Text

/-- A character that numbers are written with. -/
def Numeric (c : Char) : Prop :=
  c.isDigit = true ∨ c ∈ ['.', 'e', '+', '-']

theorem Numeric.of_all_isDigit {cs : List Char} (h : cs.all Char.isDigit = true) :
    ∀ c ∈ cs, Numeric c :=
  fun c hc => .inl (List.all_eq_true.mp h c hc)

theorem numeric_replicate (n : Nat) : ∀ c ∈ List.replicate n '0', Numeric c := by
  intro c hc
  rw [List.eq_of_mem_replicate hc]
  exact .inl rfl

namespace Text.Numeral

theorem numeric_ofNat (n : Nat) : ∀ c ∈ ofNat n, Numeric c :=
  .of_all_isDigit (all_isDigit_ofNat n)

theorem numeric_padded (width n : Nat) : ∀ c ∈ padded width n, Numeric c :=
  List.forall_mem_append.mpr ⟨numeric_replicate _, numeric_ofNat n⟩

theorem numeric_ofInt (i : Int) : ∀ c ∈ ofInt i, Numeric c := by
  unfold ofInt
  split
  · exact List.forall_mem_cons.mpr ⟨.inr (by decide), numeric_ofNat _⟩
  · exact numeric_ofNat _

theorem ofInt_ne_nil (i : Int) : ofInt i ≠ [] := by
  unfold ofInt
  split
  · exact List.cons_ne_nil _ _
  · exact ofNat_ne_nil _

end Text.Numeral

namespace Number.Style

theorem numeric_significant (d : Decimal) : ∀ c ∈ significant d, Numeric c := by
  obtain ⟨zeros, hzeros⟩ := ofNat_eq_significant d
  intro c hc
  refine Numeral.numeric_ofNat d.digits c ?_
  rw [hzeros]
  exact List.mem_append_left _ hc

variable {digits : List Char}

theorem numeric_positional (h : ∀ c ∈ digits, Numeric c) (place : Int) :
    ∀ c ∈ positional digits place, Numeric c := by
  unfold positional
  split
  · have hfront : ∀ c ∈ "0.".toList, Numeric c := by
      simp [Numeric]
    simp only [List.forall_mem_append]
    exact ⟨⟨hfront, numeric_replicate _⟩, h⟩
  · have hfraction : ∀ c ∈ if (digits.drop (place.toNat + 1)).isEmpty then ['0']
        else digits.drop (place.toNat + 1), Numeric c := by
      split
      · exact numeric_replicate 1
      · exact fun c hc => h c (List.mem_of_mem_drop hc)
    simp only [List.forall_mem_append, List.forall_mem_cons]
    exact ⟨⟨fun c hc => h c (List.mem_of_mem_take hc), numeric_replicate _⟩, .inr (by decide),
      hfraction⟩

theorem numeric_scientific (h : ∀ c ∈ digits, Numeric c) (width : Nat) (place : Int) :
    ∀ c ∈ scientific width digits place, Numeric c := by
  have hsign : Numeric (if place < 0 then '-' else '+') := by
    split <;> exact .inr (by decide)
  simp only [scientific, List.forall_mem_append, List.forall_mem_cons]
  refine ⟨?_, .inr (by decide), hsign, Numeral.numeric_padded _ _⟩
  split
  · exact List.forall_mem_nil _
  · exact h
  · simp only [List.forall_mem_cons] at h ⊢
    exact ⟨h.1, .inr (by decide), h.2⟩

theorem numeric_writeMagnitude (style : Style) (m : Nat) :
    ∀ c ∈ style.writeMagnitude m, Numeric c := by
  unfold writeMagnitude
  split
  · simp [Numeric]
  · dsimp only
    split
    · exact numeric_positional (numeric_significant _) _
    · exact numeric_scientific (numeric_significant _) _ _

theorem positional_ne_nil (digits : List Char) (place : Int) : positional digits place ≠ [] := by
  unfold positional
  split <;> simp

theorem scientific_ne_nil (width : Nat) (digits : List Char) (place : Int) :
    scientific width digits place ≠ [] :=
  List.append_ne_nil_of_right_ne_nil _ (List.cons_ne_nil _ _)

theorem writeMagnitude_ne_nil (style : Style) (m : Nat) : style.writeMagnitude m ≠ [] := by
  unfold writeMagnitude
  split
  · simp
  · dsimp only
    split
    · exact positional_ne_nil _ _
    · exact scientific_ne_nil _ _ _

/-- What holds of the words of a style and of everything written with the characters of numbers
holds of all that the style writes. -/
theorem write_induction {P : List Char → Prop} {style : Style} (hnan : P style.nan)
    (hinfinity : P style.infinity) (hnegative : P style.negativeInfinity)
    (hnumber : ∀ cs, cs ≠ [] → (∀ c ∈ cs, Numeric c) → P cs) (x : Binary64) :
    P (style.write x) := by
  have hmagnitude := numeric_writeMagnitude style x.magnitude
  unfold write
  split
  · exact hnan
  · split
    · split
      · exact hnegative
      · exact hinfinity
    · split
      · exact hnumber _ (List.cons_ne_nil _ _)
          (List.forall_mem_cons.mpr ⟨.inr (by decide), hmagnitude⟩)
      · exact hnumber _ (writeMagnitude_ne_nil _ _) hmagnitude

end Number.Style

end TraceWeave
