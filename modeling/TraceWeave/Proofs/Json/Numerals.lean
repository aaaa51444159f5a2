import TraceWeave.Json.Number
import TraceWeave.Json.Reader

/-!
# Numerals

The numerals that are written have digits before the point, no zero in front of others, and a sign
in front of the power of ten. Each is read as a whole, and taking it apart gives the parts from
which it was put together.

* `number?_literal`: a numeral is read up to its end;
* `ofLiteral_literal`: its parts come back.
-/

namespace TraceWeave.Json

/-! ## Digits -/

/-- A nonempty run of digits. -/
def IsDigits (ds : List Char) : Prop :=
  ds ≠ [] ∧ ds.all Char.isDigit = true

theorem digits?_append {ds rest : List Char} (hds : IsDigits ds)
    (hrest : ∀ c ∈ rest.head?, c.isDigit = false) : digits? (ds ++ rest) = some (ds, rest) := by
  obtain ⟨htake, hdrop⟩ := Text.Numeral.takeWhile_digits hds.2 hrest
  simp [digits?, htake, hdrop, hds.1]

/-! ## Parts -/

namespace Numeral

/-- The text of a numeral. -/
def literal (n : Numeral) : List Char :=
  (if n.negative then ['-'] else []) ++ n.whole ++
    (if n.fraction = [] then [] else '.' :: n.fraction) ++ n.power.elim [] ('e' :: ·)

/-- A numeral as the grammar has it, with a sign in front of the power of ten. -/
structure WellFormed (n : Numeral) : Prop where
  whole_digits : IsDigits n.whole
  /-- A zero in front stands alone. -/
  no_leading_zero : ∀ rest, n.whole = '0' :: rest → rest = []
  fraction_digits : n.fraction.all Char.isDigit = true
  power_signed : ∀ p ∈ n.power, ∃ ds, IsDigits ds ∧ (p = '+' :: ds ∨ p = '-' :: ds)

end Numeral

/-- A text that does not go on a number that stands before it. -/
def EndsNumber (rest : List Char) : Prop :=
  ∀ c ∈ rest.head?, c.isDigit = false ∧ c ≠ '.' ∧ c ≠ 'e' ∧ c ≠ 'E'

theorem whole?_append {ds rest : List Char} (hds : IsDigits ds)
    (hzero : ∀ more, ds = '0' :: more → more = [])
    (hrest : ∀ c ∈ rest.head?, c.isDigit = false) : whole? (ds ++ rest) = some (ds, rest) := by
  unfold whole?
  split
  · next more heq =>
    obtain ⟨d, ds, rfl⟩ := List.exists_cons_of_ne_nil hds.1
    rw [List.cons_append, List.cons.injEq] at heq
    obtain ⟨rfl, rfl⟩ := heq
    obtain rfl := hzero ds rfl
    rfl
  · exact digits?_append hds hrest

theorem fraction?_append {ds rest : List Char} (hds : ds.all Char.isDigit = true)
    (hrest : ∀ c ∈ rest.head?, c.isDigit = false ∧ c ≠ '.') :
    fraction? ((if ds = [] then [] else '.' :: ds) ++ rest) =
      some (if ds = [] then [] else '.' :: ds, rest) := by
  by_cases hnil : ds = []
  · simp only [hnil, if_true, List.nil_append]
    unfold fraction?
    split
    · exact absurd rfl (hrest '.' rfl).2
    · rfl
  · simp only [hnil, if_false, List.cons_append, fraction?]
    rw [digits?_append ⟨hnil, hds⟩ fun c hc => (hrest c hc).1]
    rfl

theorem power?_append {power : Option (List Char)} {rest : List Char}
    (hpower : ∀ p ∈ power, ∃ ds, IsDigits ds ∧ (p = '+' :: ds ∨ p = '-' :: ds))
    (hrest : EndsNumber rest) :
    power? (power.elim [] ('e' :: ·) ++ rest) = some (power.elim [] ('e' :: ·), rest) := by
  cases power with
  | none =>
    cases rest with
    | nil => rfl
    | cons c rest =>
      obtain ⟨-, -, he, hE⟩ := hrest c rfl
      simp [power?, he, hE]
  | some p =>
    have hdigits : ∀ c ∈ rest.head?, c.isDigit = false := fun c hc => (hrest c hc).1
    obtain ⟨ds, hds, rfl | rfl⟩ := hpower p rfl
    · simp [power?, digits?_append hds hdigits]
    · simp [power?, digits?_append hds hdigits]

/-! ## The whole -/

/-- A numeral is read up to its end. -/
theorem number?_literal {n : Numeral} (h : n.WellFormed) {rest : List Char}
    (hrest : EndsNumber rest) : number? (n.literal ++ rest) = some (n.literal, rest) := by
  have hbehind : ∀ c ∈ (n.power.elim [] ('e' :: ·) ++ rest).head?,
      c.isDigit = false ∧ c ≠ '.' := by
    cases n.power with
    | none => exact fun c hc => ⟨(hrest c hc).1, (hrest c hc).2.1⟩
    | some p => simp
  have hpoint : ∀ c ∈ ((if n.fraction = [] then [] else '.' :: n.fraction) ++
      (n.power.elim [] ('e' :: ·) ++ rest)).head?, c.isDigit = false := by
    split
    · exact fun c hc => (hbehind c hc).1
    · simp
  have hmagnitude : magnitude? (n.whole ++ ((if n.fraction = [] then [] else '.' :: n.fraction) ++
      (n.power.elim [] ('e' :: ·) ++ rest))) =
      some (n.whole ++ (if n.fraction = [] then [] else '.' :: n.fraction) ++
        n.power.elim [] ('e' :: ·), rest) := by
    simp [magnitude?, whole?_append h.whole_digits h.no_leading_zero hpoint,
      fraction?_append h.fraction_digits hbehind, power?_append h.power_signed hrest]
  obtain ⟨d, ds, hwhole⟩ := List.exists_cons_of_ne_nil h.whole_digits.1
  have hdigit : d ≠ '-' := by
    rintro rfl
    simpa [hwhole] using h.whole_digits.2
  unfold Numeral.literal
  cases n.negative with
  | true =>
    simp only [if_true, List.append_assoc, List.cons_append, List.nil_append, number?] at *
    rw [hmagnitude]
    rfl
  | false =>
    simp only [Bool.false_eq_true, if_false, List.append_assoc, List.nil_append] at *
    rw [hwhole] at hmagnitude ⊢
    rw [List.cons_append, number?]
    · rw [List.cons_append] at hmagnitude
      exact hmagnitude
    · intro rest heq
      exact hdigit (List.cons.inj heq).1

/-- The numeral of a sign, the digits before the point and what stands behind them. -/
def Numeral.ofTail (negative : Bool) (whole tail : List Char) : Numeral :=
  let (fraction, rest) := match tail with
    | '.' :: more => (more.takeWhile Char.isDigit, more.dropWhile Char.isDigit)
    | _ => ([], tail)
  ⟨negative, whole, fraction, match rest with | [] => none | _ :: p => some p⟩

theorem ofLiteral_eq_ofTail (negative : Bool) {whole tail : List Char} (hwhole : IsDigits whole)
    (htail : ∀ c ∈ tail.head?, c.isDigit = false) :
    Numeral.ofLiteral ((if negative then ['-'] else []) ++ (whole ++ tail)) =
      .ofTail negative whole tail := by
  obtain ⟨htake, hdrop⟩ := Text.Numeral.takeWhile_digits hwhole.2 htail
  have hsplit : ∀ body, Numeral.ofLiteral ('-' :: body) =
      .ofTail true (body.takeWhile Char.isDigit) (body.dropWhile Char.isDigit) := fun _ => rfl
  cases negative with
  | true =>
    simp only [if_true, List.singleton_append]
    rw [hsplit, htake, hdrop]
  | false =>
    simp only [Bool.false_eq_true, if_false, List.nil_append]
    simp only [Numeral.ofLiteral]
    split
    · next rest heq =>
      obtain ⟨d, ds, rfl⟩ := List.exists_cons_of_ne_nil hwhole.1
      obtain ⟨rfl, -⟩ := List.cons.inj heq
      exact absurd hwhole.2 (by simp)
    · simp only [htake, hdrop]
      rfl

/-- Taking apart is the inverse of putting together. -/
theorem ofLiteral_literal {n : Numeral} (h : n.WellFormed) : Numeral.ofLiteral n.literal = n := by
  obtain ⟨negative, whole, fraction, power⟩ := n
  have hpower : ∀ c ∈ (power.elim [] ('e' :: ·)).head?, c.isDigit = false := by
    cases power <;> simp
  rw [Numeral.literal, List.append_assoc, List.append_assoc]
  by_cases hnil : fraction = []
  · rw [if_pos hnil, List.nil_append, ofLiteral_eq_ofTail negative h.whole_digits hpower, hnil]
    cases power <;> rfl
  · obtain ⟨htake, hdrop⟩ := Text.Numeral.takeWhile_digits h.fraction_digits hpower
    rw [if_neg hnil, ofLiteral_eq_ofTail negative h.whole_digits (by simp)]
    simp only [List.cons_append, Numeral.ofTail, htake, hdrop]
    cases power <;> rfl

end TraceWeave.Json
