/-!
# Letters without case

Comparisons that ignore the case of the ASCII letters and of no other characters. `Char.toLower`
maps `A` to `Z` and leaves every other character alone, which is just this folding.

* `isUpper_iff`, `isLower_iff`: the codes of letters;
* `lowered_eq_iff`, `sameLetters_iff`: foldings of strings as those of their characters, and two
  texts agree exactly if their foldings are equal;
* `occursIn_iff`: a word occurs in a text exactly if the text is something, the word, something.
-/

namespace TraceWeave.Text

/-- The text with its ASCII letters in lower case. -/
def lower (cs : List Char) : List Char :=
  cs.map Char.toLower

/-- Folding, on strings. -/
def lowered (s : String) : String :=
  String.ofList (lower s.toList)

/-- Equality up to the case of ASCII letters. -/
def sameLetters (a b : List Char) : Bool :=
  lower a == lower b

/-- `occursIn word text`: the word stands somewhere in the text. -/
def occursIn (word : List Char) : List Char → Bool
  | [] => word.isEmpty
  | c :: cs => word.isPrefixOf (c :: cs) || occursIn word cs

/-- An ASCII hexadecimal digit, in either case. -/
def isHexDigit (c : Char) : Bool :=
  c.isDigit || ('a' ≤ c && c ≤ 'f') || ('A' ≤ c && c ≤ 'F')

theorem isUpper_iff {c : Char} : c.isUpper = true ↔ 0x41 ≤ c.toNat ∧ c.toNat ≤ 0x5A :=
  decide_eq_true_iff

theorem isLower_iff {c : Char} : c.isLower = true ↔ 0x61 ≤ c.toNat ∧ c.toNat ≤ 0x7A :=
  Bool.and_eq_true_iff.trans (and_congr decide_eq_true_iff decide_eq_true_iff)

theorem lowered_eq_iff {s word : String} : lowered s = word ↔ lower s.toList = word.toList := by
  rw [← String.toList_inj, lowered, String.toList_ofList]

theorem length_lowered (s : String) : (lowered s).toList.length = s.toList.length := by
  rw [lowered, String.toList_ofList, lower, List.length_map]

theorem sameLetters_iff {a b : List Char} : sameLetters a b = true ↔ lower a = lower b := by
  simp [sameLetters]

theorem occursIn_iff {word text : List Char} :
    occursIn word text = true ↔ ∃ before after, text = before ++ word ++ after := by
  induction text with
  | nil =>
    constructor
    · intro h
      exact ⟨[], [], by simpa [occursIn] using h⟩
    · rintro ⟨before, after, h⟩
      simp_all [occursIn]
  | cons c cs ih =>
    simp only [occursIn, Bool.or_eq_true, List.isPrefixOf_iff_prefix, ih]
    constructor
    · rintro (⟨after, h⟩ | ⟨before, after, h⟩)
      · exact ⟨[], after, by simp [h]⟩
      · exact ⟨c :: before, after, by simp [h]⟩
    · rintro ⟨before, after, h⟩
      cases before with
      | nil => exact Or.inl ⟨after, by simpa using h.symm⟩
      | cons d before =>
        simp only [List.cons_append, List.cons.injEq] at h
        exact Or.inr ⟨before, after, h.2⟩

end TraceWeave.Text
