import TraceWeave.Proofs.Lists
import TraceWeave.Proofs.Number.Digits
import TraceWeave.Yaml.Record
import TraceWeave.Yaml.Written

/-!
# Numbers as plain texts

A numeral is never quoted: it has no character that YAML would take for more than text, and it
reads as its number whatever the bound, for it has no superfluous zero in front.

* `canBePlain_ofNat`: a numeral can be written as it is;
* `unsigned?_ofNat`: a numeral reads as its number.
-/

namespace TraceWeave.Yaml

open TraceWeave.Text Written

theorem ne_of_isDigit {c d : Char} (h : c.isDigit = true) (hd : d.isDigit = false) : c ≠ d := by
  rintro rfl
  rw [h] at hd
  exact absurd hd (by decide)

namespace Written

variable {p q : Char → Bool} {cs : List Char}

theorem hasPair_eq_false (h : (∀ c ∈ cs, p c = false) ∨ ∀ c ∈ cs, q c = false) :
    hasPair p q cs = false := by
  induction cs with
  | nil => rfl
  | cons c cs ih =>
    cases cs with
    | nil => rfl
    | cons d cs =>
      have hrest := ih (h.imp (fun h x hx => h x (List.mem_cons_of_mem c hx))
        fun h x hx => h x (List.mem_cons_of_mem c hx))
      have hfirst : (p c && q d) = false := by
        rcases h with h | h
        · rw [h c List.mem_cons_self, Bool.false_and]
        · rw [h d (List.mem_cons_of_mem c List.mem_cons_self), Bool.and_false]
      rw [hasPair, hfirst, hrest, Bool.or_self]

theorem isPrintable_of_isDigit {c : Char} (h : c.isDigit = true) : isPrintable c = true := by
  have hcode : 0x30 ≤ c.toNat ∧ c.toNat ≤ 0x39 := Char.isDigit_iff_toNat.mp h
  simp only [isPrintable, Bool.or_eq_true, Bool.and_eq_true, decide_eq_true_eq]
  omega

theorem needsEscapes_digits (h : ∀ c ∈ cs, c.isDigit = true) : needsEscapes cs = false := by
  have hprintable : cs.any (!isPrintable ·) = false := by
    rw [List.any_eq_false]
    intro c hc
    rw [isPrintable_of_isDigit (h c hc)]
    decide
  have hspace : ∀ c ∈ cs, (c == ' ') = false :=
    fun c hc => beq_eq_false_iff_ne.mpr (ne_of_isDigit (h c hc) (by decide))
  rw [needsEscapes, hprintable, hasPair_eq_false (.inl hspace), hasPair_eq_false (.inr hspace),
    Bool.or_self, Bool.or_self]

theorem isIndicated_digits (h : ∀ c ∈ cs, c.isDigit = true) : isIndicated cs = false := by
  have hne (d : Char) (hd : d.isDigit = false) : ∀ c ∈ cs, (c == d) = false :=
    fun c hc => beq_eq_false_iff_ne.mpr (ne_of_isDigit (h c hc) hd)
  have hcolon : isFollowed ':' cs = false := by
    refine hasPair_eq_false (.inl ?_)
    rw [List.forall_mem_append]
    exact ⟨hne ':' (by decide), List.forall_mem_singleton.mpr (by decide)⟩
  have hcomment : hasPair isSeparation (· == '#') cs = false :=
    hasPair_eq_false (.inr (hne '#' (by decide)))
  cases cs with
  | nil => decide
  | cons c cs =>
    have hfirst (d : Char) (hd : d.isDigit = false) : c ≠ d :=
      ne_of_isDigit (h c List.mem_cons_self) hd
    have hlead : c ∉ leadingIndicators := by
      intro hmem
      have hnone : leadingIndicators.all (!Char.isDigit ·) = true := by decide
      simpa [h c List.mem_cons_self] using List.all_eq_true.mp hnone c hmem
    have hmark (d : Char) (hd : d.isDigit = false) (mark : List Char) :
        (d :: mark).isPrefixOf (c :: cs) = false := by
      simp [List.isPrefixOf, (hfirst d hd).symm]
    simp [isIndicated, hcolon, hcomment, hlead, hfirst '-' (by decide), hfirst '?' (by decide),
      hmark '-' (by decide), hmark '.' (by decide)]

theorem canBePlain_digits (h : ∀ c ∈ cs, c.isDigit = true) : canBePlain cs = true := by
  have hne (d : Char) (hd : d.isDigit = false) : ∀ c ∈ cs, (c == d) = false :=
    fun c hc => beq_eq_false_iff_ne.mpr (ne_of_isDigit (h c hc) hd)
  have hends : ((cs.take 1 ++ cs.getLast?.toList).any fun c => c == ' ') = false := by
    rw [List.any_eq_false]
    intro c hc
    rw [hne ' ' (by decide) c]
    · decide
    · rcases List.mem_append.mp hc with hc | hc
      · exact List.mem_of_mem_take hc
      · exact List.mem_of_getLast? (Option.mem_toList.mp hc)
  have hbreak : cs.any isBreak = false := by
    rw [List.any_eq_false]
    intro c hc
    rw [isBreak, hne '\n' (by decide) c hc, hne '\u2028' (by decide) c hc,
      hne '\u2029' (by decide) c hc]
    decide
  rw [canBePlain, hends, hbreak, needsEscapes_digits h, isIndicated_digits h]
  rfl

end Written

theorem canBePlain_ofNat (n : Nat) : canBePlain (Numeral.ofNat n) = true :=
  canBePlain_digits (List.all_eq_true.mp (Numeral.all_isDigit_ofNat n))

namespace Plain

variable {bound n : Nat} {cs : List Char}

theorem digits?_digits (hsome : cs ≠ []) (h : ∀ c ∈ cs, c.isDigit = true)
    (hbound : Numeral.value cs ≤ bound) : digits? 10 bound cs = some (Numeral.value cs) := by
  have hdigit : ∀ c ∈ cs, digit? 10 c = some (c.toNat - 0x30) := by
    intro c hc
    have hle := Numeral.digit_le (h c hc)
    have hrange : '0' ≤ c ∧ c ≤ '9' := Char.isDigit_iff_toNat.mp (h c hc)
    rw [digit?, if_pos hrange, Option.filter_some, if_pos (by simpa using Nat.lt_succ_of_le hle)]
  have hempty : cs.isEmpty = false := by simpa using hsome
  have hfold : (cs.map fun c => c.toNat - 0x30).foldl (fun n digit => 10 * n + digit) 0 =
      Numeral.value cs := by
    rw [List.foldl_map, Numeral.value]
  rw [digits?, hempty, mapM_eq_some hdigit, if_neg Bool.false_ne_true]
  simp only [Option.bind_eq_bind, Option.bind_some, hfold, Option.filter_some, hbound, decide_true,
    if_true]

/-- What a numeral begins with. -/
theorem ofNat_eq_cons (n : Nat) : ∃ c cs, Numeral.ofNat n = c :: cs ∧ c.isDigit = true ∧
    (c = '0' → cs = []) := by
  obtain ⟨c, cs, hcons⟩ := List.exists_cons_of_ne_nil (Numeral.ofNat_ne_nil n)
  refine ⟨c, cs, hcons, Numeral.isDigit_of_ofNat_eq_cons hcons, ?_⟩
  rintro rfl
  rcases Nat.eq_zero_or_pos n with rfl | hpos
  · exact (List.cons.inj hcons).2.symm
  · exact absurd rfl (Numeral.ofNat_head hpos hcons)

theorem hasSpareZero_ofNat (n : Nat) : hasSpareZero (Numeral.ofNat n) = false := by
  obtain ⟨c, cs, hcons, hdigit, hzero⟩ := ofNat_eq_cons n
  rw [hcons]
  by_cases hc : c = '0'
  · rw [hc, hzero hc]
    rfl
  · have hother (d : Char) (hd : c ≠ d) (rest : List Char) (heq : c :: cs = d :: rest) : False :=
      hd (List.cons.inj heq).1
    rw [hasSpareZero]
    · exact hother '-' (ne_of_isDigit hdigit (by decide))
    · exact hother '+' (ne_of_isDigit hdigit (by decide))
    · exact hother '0' hc

theorem base_ofNat (n : Nat) : base (withoutPlus (Numeral.ofNat n)) = (10, Numeral.ofNat n) := by
  obtain ⟨c, cs, hcons, hdigit, hzero⟩ := ofNat_eq_cons n
  have hplus : withoutPlus (Numeral.ofNat n) = Numeral.ofNat n := by
    unfold withoutPlus
    split
    · next rest heq => exact absurd (Numeral.isDigit_of_ofNat_eq_cons heq) (by decide)
    · rfl
  have hother (d : Char) (rest : List Char) (heq : c :: cs = '0' :: d :: rest) : False := by
    obtain ⟨hc, hcs⟩ := List.cons.inj heq
    exact List.cons_ne_nil d rest (hcs.symm.trans (hzero hc))
  rw [hplus, hcons, base]
  · exact hother 'x'
  · exact hother 'o'
  · exact hother 'b'

theorem unsigned?_ofNat (h : n ≤ bound) : unsigned? bound (Numeral.ofNat n) = some n := by
  have hall := List.all_eq_true.mp (Numeral.all_isDigit_ofNat n)
  have hvalue := Numeral.value_ofNat n
  rw [unsigned?, hasSpareZero_ofNat, base_ofNat, if_neg Bool.false_ne_true]
  dsimp only
  rw [digits?_digits (Numeral.ofNat_ne_nil n) hall (by rwa [hvalue]), hvalue]

end Plain

end TraceWeave.Yaml
