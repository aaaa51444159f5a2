import TraceWeave.Json.Printer
import TraceWeave.Json.Reader

/-!
# Written strings are read back

A written character is read as one piece, and the pieces of a text stand for the text: no escape
that is written names a surrogate.

* `string?_quoted`: a string is read up to its closing quotation mark, as the text it was written
  from.
-/

namespace TraceWeave.Json

open TraceWeave.Text

/-! ## Pieces -/

/-- What a written character is read as. -/
def pieceOf (c : Char) : Piece :=
  if c.toNat < 0x20 ∧ c ∉ ['\x08', '\x0c', '\n', '\r', '\t'] then .unit c.toNat else .char c

theorem pieces?_plain {c : Char} (hquote : c ≠ '"') (hslash : c ≠ '\\') (hraw : ¬c.toNat < 0x20)
    (rest : List Char) :
    pieces? (c :: rest) = (pieces? rest).map fun (more, rest) => (.char c :: more, rest) := by
  rw [pieces?]
  · rw [if_neg (by simp [hslash, hraw])]
  · exact fun h => hquote h
  · intro a b c' d r h
    exact absurd h hslash
  · intro e r h
    exact absurd h hslash

theorem unit?_control (c : Char) (h : c.toNat < 0x20) :
    unit? '0' '0' (Hex.digit (c.toNat / 16)) (Hex.digit (c.toNat % 16)) = some c.toNat := by
  have hzero : Hex.value? '0' = some 0 := by decide
  have hhigh := Hex.value?_digit (c.toNat / 16) (by omega)
  have hlow := Hex.value?_digit (c.toNat % 16) (by omega)
  have hsum : 16 * (c.toNat / 16) + c.toNat % 16 = c.toNat := by omega
  simp [unit?, hzero, hhigh, hlow, hsum]

theorem pieces?_letter {e c : Char} (hescape : escape? e = some c) (hu : e ≠ 'u')
    (hpiece : pieceOf c = .char c) (rest : List Char) : pieces? ('\\' :: e :: rest) =
      (pieces? rest).map fun (more, rest) => (pieceOf c :: more, rest) := by
  rw [pieces?]
  · rw [hescape, hpiece]
    cases pieces? rest <;> rfl
  · intro a b c d r h
    exact absurd h hu

theorem pieces?_escaped (c : Char) (rest : List Char) :
    pieces? (escaped c ++ rest) =
      (pieces? rest).map fun (more, rest) => (pieceOf c :: more, rest) := by
  unfold escaped
  split
  · next h => subst h; exact pieces?_letter rfl (by decide) (by decide) rest
  split
  · next h => subst h; exact pieces?_letter rfl (by decide) (by decide) rest
  split
  · next h => subst h; exact pieces?_letter rfl (by decide) (by decide) rest
  split
  · next h => subst h; exact pieces?_letter rfl (by decide) (by decide) rest
  split
  · next h => subst h; exact pieces?_letter rfl (by decide) (by decide) rest
  split
  · next h => subst h; exact pieces?_letter rfl (by decide) (by decide) rest
  split
  · next h => subst h; exact pieces?_letter rfl (by decide) (by decide) rest
  split
  · next hb hf hn hr ht hraw =>
    have hpiece : pieceOf c = .unit c.toNat := by simp [pieceOf, *]
    simp only [List.cons_append, List.nil_append]
    rw [pieces?, unit?_control c hraw, hpiece]
    cases pieces? rest <;> rfl
  · next hquote hslash _ _ _ _ _ hraw =>
    have hpiece : pieceOf c = .char c := by simp [pieceOf, hraw]
    rw [List.singleton_append, pieces?_plain hquote hslash hraw, hpiece]

theorem pieces?_quoted (cs rest : List Char) :
    pieces? (cs.flatMap escaped ++ '"' :: rest) = some (cs.map pieceOf, rest) := by
  induction cs with
  | nil => simp [pieces?]
  | cons c cs ih => simp [List.flatMap_cons, pieces?_escaped, ih]

/-! ## Characters -/

theorem characters?_unit {n : Nat} (hhigh : isHighSurrogate n = false)
    (hlow : isLowSurrogate n = false) (rest : List Piece) :
    characters? (.unit n :: rest) = (characters? rest).map (Char.ofNat n :: ·) := by
  rcases rest with - | ⟨c | lo, rest⟩
  · simp [characters?, hhigh, hlow]
  · simp [characters?, hhigh, hlow]
  · rw [characters?]
    simp [hhigh, hlow]

theorem characters?_pieceOf (cs : List Char) : characters? (cs.map pieceOf) = some cs := by
  induction cs with
  | nil => rfl
  | cons c cs ih =>
    rw [List.map_cons]
    by_cases hunit : c.toNat < 0x20 ∧ c ∉ ['\x08', '\x0c', '\n', '\r', '\t']
    · have hpiece : pieceOf c = .unit c.toNat := if_pos hunit
      have hhigh : isHighSurrogate c.toNat = false := by
        simp only [isHighSurrogate, Bool.and_eq_false_iff, decide_eq_false_iff_not]
        omega
      have hlow : isLowSurrogate c.toNat = false := by
        simp only [isLowSurrogate, Bool.and_eq_false_iff, decide_eq_false_iff_not]
        omega
      rw [hpiece, characters?_unit hhigh hlow, ih, Option.map_some, Char.ofNat_toNat]
    · have hpiece : pieceOf c = .char c := if_neg hunit
      rw [hpiece, characters?, ih]
      rfl

theorem string?_quoted (s : String) (rest : List Char) :
    string? (s.toList.flatMap escaped ++ '"' :: rest) = some (some s, rest) := by
  simp [string?, pieces?_quoted, characters?_pieceOf]

end TraceWeave.Json
