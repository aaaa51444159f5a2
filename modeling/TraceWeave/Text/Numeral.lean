/-!
# Decimal numerals

Whole numbers as decimal text, and back. A numeral is read with or without leading zeros; an
unsigned one may carry a plus sign and a signed one either sign.

* `nat?_ofNat`, `unsigned?_ofNat`, `signed?_ofInt`: what is written reads back;
* `nat?_eq_some_iff`: exactly the nonempty runs of digits are read, at their value;
* `takeWhile_digits`: a run of digits is taken off the text behind it.
-/

namespace TraceWeave.Text.Numeral

/-- The shortest numeral of a number. -/
def ofNat (n : Nat) : List Char :=
  Nat.toDigits 10 n

/-- The shortest numeral of an integer, with a sign only if it is negative. -/
def ofInt (i : Int) : List Char :=
  if i < 0 then '-' :: ofNat i.natAbs else ofNat i.natAbs

/-- The numeral with zeros in front, up to the width asked for. -/
def padded (width n : Nat) : List Char :=
  let digits := ofNat n
  List.replicate (width - digits.length) '0' ++ digits

/-- The number that a run of digits stands for. -/
def value (cs : List Char) : Nat :=
  cs.foldl (fun n c => 10 * n + (c.toNat - 0x30)) 0

/-- Reads one or more ASCII digits. -/
def nat? (cs : List Char) : Option Nat :=
  if cs ≠ [] ∧ cs.all Char.isDigit then some (value cs) else none

/-- Reads digits, possibly after a plus sign, whose value is at most `max`. -/
def unsigned? (max : Nat) (cs : List Char) : Option Nat :=
  (nat? (match cs with | '+' :: rest => rest | _ => cs)).filter (· ≤ max)

/-- Reads digits, possibly after a sign. -/
def int? : List Char → Option Int
  | '-' :: rest => (nat? rest).map fun n => -Int.ofNat n
  | '+' :: rest => (nat? rest).map Int.ofNat
  | cs => (nat? cs).map Int.ofNat

/-- Reads digits, possibly after a sign, whose value lies between `min` and `max`. -/
def signed? (min max : Int) (cs : List Char) : Option Int :=
  (int? cs).filter fun i => min ≤ i ∧ i ≤ max

/-- Reads a number of 64 bits with a sign. -/
def int64? (cs : List Char) : Option Int :=
  signed? (-0x8000_0000_0000_0000) 0x7FFF_FFFF_FFFF_FFFF cs

theorem nat?_eq_some_iff {cs : List Char} {n : Nat} :
    nat? cs = some n ↔ cs ≠ [] ∧ cs.all Char.isDigit = true ∧ n = value cs := by
  unfold nat?
  split
  · next h => simp [h, eq_comm]
  · next h =>
    constructor
    · intro hn
      exact absurd hn (by simp)
    · rintro ⟨hne, hall, -⟩
      exact absurd ⟨hne, hall⟩ h

theorem takeWhile_digits {ds rest : List Char} (hds : ds.all Char.isDigit = true)
    (hrest : ∀ c ∈ rest.head?, c.isDigit = false) :
    (ds ++ rest).takeWhile Char.isDigit = ds ∧ (ds ++ rest).dropWhile Char.isDigit = rest := by
  have hall : ∀ c ∈ ds, c.isDigit = true := List.all_eq_true.mp hds
  have hstop : rest.takeWhile Char.isDigit = [] ∧ rest.dropWhile Char.isDigit = rest := by
    cases rest with
    | nil => simp
    | cons c rest => simp [hrest c rfl]
  rw [List.takeWhile_append_of_pos hall, List.dropWhile_append_of_pos hall, hstop.1, hstop.2,
    List.append_nil]
  exact ⟨rfl, rfl⟩

theorem value_append_digit (cs : List Char) (c : Char) :
    value (cs ++ [c]) = 10 * value cs + (c.toNat - 0x30) := by
  simp [value]

theorem digitChar_toNat : ∀ d, d < 10 → (Nat.digitChar d).toNat = 0x30 + d := by
  decide

theorem value_ofNat (n : Nat) : value (ofNat n) = n := by
  induction n using Nat.strongRecOn with
  | ind n ih =>
    by_cases h : n < 10
    · rw [ofNat, Nat.toDigits_of_lt_base h]
      simp [value, digitChar_toNat n h]
    · have hd : n % 10 < 10 := Nat.mod_lt _ (by decide)
      have hq : 0 < n / 10 := by omega
      have hsplit : 10 * (n / 10) + n % 10 = n := by omega
      have hdigits := Nat.toDigits_append_toDigits (b := 10) (by decide) hq hd
      rw [hsplit, Nat.toDigits_of_lt_base hd] at hdigits
      rw [ofNat, ← hdigits, value_append_digit, digitChar_toNat _ hd]
      have := ih (n / 10) (by omega)
      rw [ofNat] at this
      omega

theorem ofNat_ne_nil (n : Nat) : ofNat n ≠ [] := by
  simp [ofNat]

theorem all_isDigit_ofNat (n : Nat) : (ofNat n).all Char.isDigit = true := by
  rw [List.all_eq_true]
  intro c hc
  exact Nat.isDigit_of_mem_toDigits (by decide) (by decide) hc

theorem nat?_ofNat (n : Nat) : nat? (ofNat n) = some n :=
  nat?_eq_some_iff.2 ⟨ofNat_ne_nil n, all_isDigit_ofNat n, (value_ofNat n).symm⟩

theorem isDigit_of_ofNat_eq_cons {n : Nat} {c : Char} {cs : List Char} (h : ofNat n = c :: cs) :
    c.isDigit = true := by
  have := all_isDigit_ofNat n
  simp_all

theorem unsigned?_ofNat {max n : Nat} (h : n ≤ max) : unsigned? max (ofNat n) = some n := by
  unfold unsigned?
  split
  · next rest heq => exact absurd (isDigit_of_ofNat_eq_cons heq) (by decide)
  · simp [nat?_ofNat, Option.filter, h]

theorem int?_ofNat (n : Nat) : int? (ofNat n) = some (Int.ofNat n) := by
  unfold int?
  split
  · next rest heq => exact absurd (isDigit_of_ofNat_eq_cons heq) (by decide)
  · next rest heq => exact absurd (isDigit_of_ofNat_eq_cons heq) (by decide)
  · simp [nat?_ofNat]

theorem int?_ofInt (i : Int) : int? (ofInt i) = some i := by
  unfold ofInt
  split
  · next h =>
    have hi : -Int.ofNat i.natAbs = i := by simp only [Int.ofNat_eq_natCast]; omega
    simp only [int?, nat?_ofNat, Option.map_some, hi]
  · next h =>
    have hi : Int.ofNat i.natAbs = i := by simp only [Int.ofNat_eq_natCast]; omega
    rw [int?_ofNat, hi]

theorem signed?_ofInt {min max i : Int} (hmin : min ≤ i) (hmax : i ≤ max) :
    signed? min max (ofInt i) = some i := by
  simp [signed?, int?_ofInt, Option.filter, hmin, hmax]

end TraceWeave.Text.Numeral
