/-!
# Pieces between separators

A text cut at every occurrence of a character. There is one piece more than there are separators,
and pieces may be empty.

* `joined_pieces`: with the separators put back, the pieces are the text;
* `not_mem_of_mem_pieces`: no piece holds a separator;
* `pieces_of_not_mem`, `pieces_append_cons`: the pieces of a text in terms of its first separator;
* `pieces_eq_pair_iff`: the texts with a single separator.
-/

namespace TraceWeave.Text

/-- The pieces of a text between the separators. -/
def pieces (separator : Char) : List Char → List (List Char)
  | [] => [[]]
  | c :: cs =>
    if c = separator then [] :: pieces separator cs
    else
      match pieces separator cs with
      | [] => [[c]]
      | piece :: rest => (c :: piece) :: rest

/-- Texts with a separator between any two. -/
def joined (separator : List Char) : List (List Char) → List Char
  | [] => []
  | [piece] => piece
  | piece :: rest => piece ++ separator ++ joined separator rest

theorem pieces_ne_nil (separator : Char) (cs : List Char) : pieces separator cs ≠ [] := by
  cases cs with
  | nil => simp [pieces]
  | cons c cs =>
    simp only [pieces]
    split
    · simp
    · split <;> simp

theorem joined_cons_cons (separator : List Char) (c : Char) (piece : List Char)
    (rest : List (List Char)) :
    joined separator ((c :: piece) :: rest) = c :: joined separator (piece :: rest) := by
  cases rest <;> simp [joined]

theorem joined_pieces (separator : Char) (cs : List Char) :
    joined [separator] (pieces separator cs) = cs := by
  induction cs with
  | nil => rfl
  | cons c cs ih =>
    have hne := pieces_ne_nil separator cs
    simp only [pieces]
    split
    · next h =>
      subst h
      cases hp : pieces c cs with
      | nil => exact absurd hp hne
      | cons piece rest => rw [joined, ← hp, ih] <;> simp
    · cases hp : pieces separator cs with
      | nil => exact absurd hp hne
      | cons piece rest => rw [joined_cons_cons, ← hp, ih]

theorem not_mem_of_mem_pieces {separator : Char} {cs piece : List Char}
    (h : piece ∈ pieces separator cs) : separator ∉ piece := by
  induction cs generalizing piece with
  | nil => simp_all [pieces]
  | cons c cs ih =>
    simp only [pieces] at h
    split at h
    · rcases List.mem_cons.1 h with rfl | h
      · simp
      · exact ih h
    · next hc =>
      cases hp : pieces separator cs with
      | nil => exact absurd hp (pieces_ne_nil separator cs)
      | cons front rest =>
        rw [hp] at h ih
        rcases List.mem_cons.1 h with rfl | h
        · simp [Ne.symm hc, ih]
        · exact ih (List.mem_cons_of_mem _ h)

theorem pieces_of_not_mem {separator : Char} {cs : List Char} (h : separator ∉ cs) :
    pieces separator cs = [cs] := by
  induction cs with
  | nil => rfl
  | cons c cs ih =>
    rw [List.mem_cons, not_or] at h
    rw [pieces, if_neg (Ne.symm h.1), ih h.2]

theorem pieces_append_cons {separator : Char} {front : List Char} (h : separator ∉ front)
    (back : List Char) :
    pieces separator (front ++ separator :: back) = front :: pieces separator back := by
  induction front with
  | nil => rw [List.nil_append, pieces, if_pos rfl]
  | cons c front ih =>
    rw [List.mem_cons, not_or] at h
    rw [List.cons_append, pieces, if_neg (Ne.symm h.1), ih h.2]

theorem pieces_eq_pair_iff {separator : Char} {cs left right : List Char} :
    pieces separator cs = [left, right] ↔
      cs = left ++ separator :: right ∧ separator ∉ left ∧ separator ∉ right := by
  constructor
  · intro h
    have hfree : ∀ piece ∈ [left, right], separator ∉ piece := fun piece hpiece =>
      not_mem_of_mem_pieces (h ▸ hpiece)
    refine ⟨?_, hfree left (by simp), hfree right (by simp)⟩
    rw [← joined_pieces separator cs, h]
    simp [joined]
  · rintro ⟨rfl, hleft, hright⟩
    rw [pieces_append_cons hleft, pieces_of_not_mem hright]

end TraceWeave.Text
