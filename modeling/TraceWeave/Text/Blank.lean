/-!
# White space

The characters with the Unicode property White_Space, and removing them from the ends of a text.

* `trimFront_eq_self`, `trimBack_eq_self`, `trimBack_cons`: an end that is not blank stays;
* `trim_eq_self`: a text without blanks is not trimmed;
* `trim_ne_nil`: a text with something else than a blank in front is not trimmed away;
* `trim_sublist`, `trim_trim`: a trimmed text is part of the text, and is not trimmed any further.
-/

namespace TraceWeave.Text

/-- The Unicode property White_Space. -/
def isBlank (c : Char) : Bool :=
  let n := c.toNat
  (0x09 ≤ n && n ≤ 0x0D) || n == 0x20 || n == 0x85 || n == 0xA0 || n == 0x1680 ||
    (0x2000 ≤ n && n ≤ 0x200A) || n == 0x2028 || n == 0x2029 || n == 0x202F || n == 0x205F ||
    n == 0x3000

/-- The text without the blanks at its front. -/
def trimFront (cs : List Char) : List Char :=
  cs.dropWhile isBlank

/-- The text without the blanks at its back. -/
def trimBack (cs : List Char) : List Char :=
  (cs.reverse.dropWhile isBlank).reverse

/-- The text without the blanks at either end. -/
def trim (cs : List Char) : List Char :=
  trimBack (trimFront cs)

/-- Trimming, on strings. -/
def trimmed (s : String) : String :=
  String.ofList (trim s.toList)

@[simp] theorem toList_trimmed (s : String) : (trimmed s).toList = trim s.toList := by
  simp [trimmed]

theorem trimFront_eq_self {c : Char} {cs : List Char} (h : isBlank c = false) :
    trimFront (c :: cs) = c :: cs := by
  simp [trimFront, h]

theorem trimBack_eq_self {c : Char} {cs : List Char} (h : isBlank c = false) :
    trimBack (cs ++ [c]) = cs ++ [c] := by
  simp [trimBack, h]

theorem trim_eq_self {cs : List Char} (h : ∀ c ∈ cs, isBlank c = false) : trim cs = cs := by
  have hfront : trimFront cs = cs := by
    cases cs with
    | nil => rfl
    | cons c cs => exact trimFront_eq_self (h c List.mem_cons_self)
  rw [trim, hfront]
  rcases List.eq_nil_or_concat cs with rfl | ⟨front, last, rfl⟩
  · rfl
  · rw [List.concat_eq_append] at h ⊢
    exact trimBack_eq_self (h last (by simp))

theorem trimBack_cons {c : Char} {cs : List Char} (h : isBlank c = false) :
    trimBack (c :: cs) = c :: trimBack cs := by
  simp only [trimBack, List.reverse_cons, List.dropWhile_append]
  split
  · next hnil => simp [List.isEmpty_iff.mp hnil, h]
  · simp

theorem trim_ne_nil {cs : List Char} {c : Char} (h : isBlank c = false) : trim (c :: cs) ≠ [] := by
  rw [trim, trimFront_eq_self h, trimBack_cons h]
  exact List.cons_ne_nil _ _

theorem trim_sublist (cs : List Char) : (trim cs).Sublist cs := by
  have hback : (trimBack (trimFront cs)).Sublist (trimFront cs) := by
    rw [trimBack, ← List.reverse_sublist, List.reverse_reverse]
    exact List.dropWhile_sublist _
  exact hback.trans (List.dropWhile_sublist _)

theorem isBlank_of_trimFront {c : Char} {cs rest : List Char} (h : trimFront cs = c :: rest) :
    isBlank c = false := by
  have hhead := List.head?_dropWhile_not isBlank cs
  rw [← trimFront, h] at hhead
  exact hhead

theorem trimBack_trimBack (cs : List Char) : trimBack (trimBack cs) = trimBack cs := by
  rw [trimBack, trimBack, List.reverse_reverse]
  cases hfront : cs.reverse.dropWhile isBlank with
  | nil => rfl
  | cons c rest => rw [List.dropWhile_cons_of_neg (by simp [isBlank_of_trimFront hfront])]

theorem trim_trim (cs : List Char) : trim (trim cs) = trim cs := by
  cases hfront : trimFront cs with
  | nil => rw [trim, trim, hfront]; rfl
  | cons c rest =>
    have hc := isBlank_of_trimFront hfront
    rw [trim, trim, hfront, trimBack_cons hc, trimFront_eq_self hc, ← trimBack_cons hc,
      trimBack_trimBack]

end TraceWeave.Text
