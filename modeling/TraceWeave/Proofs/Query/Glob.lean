import TraceWeave.Query.Pattern
import Mathlib.Data.List.Infix

/-!
# What a pattern selects

A pattern stands for the texts that come out of it when every star is replaced by some text. The
matching does not try all the ways to do so: it takes each part between two stars where the part
first occurs, and never comes back. Nothing is lost by that. Behind the first occurrence the most is
left of a text, and whatever else could have been left is an end of it.

* `append_suffix_of_afterFirst?`, `exists_afterFirst?`: the first occurrence, and why it is enough;
* `endsThrough_iff`: the parts behind the first star;
* `Pattern.selects_iff_glob`: a pattern selects exactly the keys that it stands for.
-/

namespace TraceWeave.Query

open Text

/-- The text comes out of the pattern when every star in it is replaced by some text. -/
inductive Glob : List Char → List Char → Prop
  | nil : Glob [] []
  | star {pattern text : List Char} (fill : List Char) (h : Glob pattern text) :
    Glob ('*' :: pattern) (fill ++ text)
  | char {c : Char} {pattern text : List Char} (hc : c ≠ '*') (h : Glob pattern text) :
    Glob (c :: pattern) (c :: text)

/-! ## Stars and other characters -/

theorem glob_star_iff {pattern text : List Char} :
    Glob ('*' :: pattern) text ↔ ∃ rest, rest <:+ text ∧ Glob pattern rest := by
  constructor
  · intro h
    cases h with
    | star fill h => exact ⟨_, List.suffix_append _ _, h⟩
    | char hc h => exact absurd rfl hc
  · rintro ⟨rest, ⟨fill, rfl⟩, h⟩
    exact .star fill h

theorem glob_append_iff {part pattern text : List Char} (hpart : '*' ∉ part) :
    Glob (part ++ pattern) text ↔ ∃ rest, text = part ++ rest ∧ Glob pattern rest := by
  induction part generalizing text with
  | nil => simp
  | cons c part ih =>
    rw [List.mem_cons, not_or] at hpart
    constructor
    · intro h
      cases h with
      | star fill h => exact absurd rfl hpart.1
      | char hc h =>
        obtain ⟨rest, rfl, hrest⟩ := (ih hpart.2).mp h
        exact ⟨rest, rfl, hrest⟩
    · rintro ⟨rest, rfl, hrest⟩
      exact .char (Ne.symm hpart.1) ((ih hpart.2).mpr ⟨rest, rfl, hrest⟩)

theorem glob_iff_eq {part text : List Char} (hpart : '*' ∉ part) :
    Glob part text ↔ text = part := by
  have hnil : ∀ rest, Glob [] rest ↔ rest = [] := by
    intro rest
    constructor
    · rintro ⟨⟩
      rfl
    · rintro rfl
      exact .nil
  have happend : Glob (part ++ []) text ↔ ∃ rest, text = part ++ rest ∧ Glob [] rest :=
    glob_append_iff hpart
  simpa [hnil] using happend

/-! ## First occurrences -/

theorem append_suffix_of_afterFirst? {word text rest : List Char}
    (h : afterFirst? word text = some rest) : word ++ rest <:+ text := by
  induction text with
  | nil =>
    rw [afterFirst?] at h
    split at h
    · next hempty => simp_all
    · cases h
  | cons c text ih =>
    rw [afterFirst?] at h
    split at h
    · next hstart =>
      obtain ⟨back, hback⟩ := List.isPrefixOf_iff_prefix.mp hstart
      rw [← hback, List.drop_left, Option.some.injEq] at h
      rw [← h, hback]
    · exact (ih h).trans (List.suffix_cons c text)

/-- Whatever some occurrence of a word leaves of a text is an end of what the first one leaves. -/
theorem exists_afterFirst? {word back text : List Char} (h : word ++ back <:+ text) :
    ∃ rest, afterFirst? word text = some rest ∧ back <:+ rest := by
  induction text with
  | nil =>
    obtain ⟨rfl, rfl⟩ := List.append_eq_nil_iff.mp (List.suffix_nil.mp h)
    exact ⟨[], rfl, List.suffix_refl _⟩
  | cons c text ih =>
    by_cases hstart : word.isPrefixOf (c :: text) = true
    · refine ⟨(c :: text).drop word.length, if_pos hstart, ?_⟩
      -- The word is taken off the front of the text, so no end behind another occurrence is cut.
      obtain ⟨front, hfront⟩ := h
      rw [← hfront, ← List.append_assoc, List.drop_append_of_le_length (by simp)]
      exact List.suffix_append _ _
    · rw [afterFirst?, if_neg hstart]
      refine ih ((List.suffix_cons_iff.mp h).resolve_left fun heq => hstart ?_)
      rw [← heq]
      exact List.isPrefixOf_iff_prefix.mpr (List.prefix_append _ _)

/-! ## The parts of a pattern -/

theorem endsThrough_cons_cons (part next : List Char) (parts : List (List Char))
    (text : List Char) :
    endsThrough (part :: next :: parts) text = true ↔
      ∃ rest, afterFirst? part text = some rest ∧ endsThrough (next :: parts) rest = true := by
  cases hfirst : afterFirst? part text <;> simp [endsThrough, hfirst]

/-- The parts are found one behind the other exactly if some end of the text comes out of the
pattern that they make up. -/
theorem endsThrough_iff {parts : List (List Char)} (hne : parts ≠ [])
    (hparts : ∀ part ∈ parts, '*' ∉ part) (text : List Char) :
    endsThrough parts text = true ↔ ∃ rest, rest <:+ text ∧ Glob (joined ['*'] parts) rest := by
  induction parts generalizing text with
  | nil => exact absurd rfl hne
  | cons part parts ih =>
    have hpart : '*' ∉ part := hparts part List.mem_cons_self
    cases parts with
    | nil =>
      simp only [endsThrough, List.isSuffixOf_iff_suffix, joined, glob_iff_eq hpart,
        exists_eq_right]
    | cons next parts =>
      have hjoined : joined ['*'] (part :: next :: parts) =
          part ++ '*' :: joined ['*'] (next :: parts) := by
        simp [joined]
      have hrest := ih (by simp) fun p hp => hparts p (List.mem_cons_of_mem _ hp)
      simp only [endsThrough_cons_cons, hrest, hjoined, glob_append_iff hpart, glob_star_iff]
      constructor
      · rintro ⟨rest, hfirst, hends⟩
        exact ⟨part ++ rest, append_suffix_of_afterFirst? hfirst, rest, rfl, hends⟩
      · rintro ⟨_, hfound, back, rfl, back', hback, hglob⟩
        obtain ⟨rest, hfirst, hend⟩ := exists_afterFirst? hfound
        exact ⟨rest, hfirst, back', hback.trans hend, hglob⟩

theorem isPrefixOf_and_drop_iff {first text : List Char} {p : List Char → Bool} :
    (first.isPrefixOf text && p (text.drop first.length)) = true ↔
      ∃ rest, text = first ++ rest ∧ p rest = true := by
  rw [Bool.and_eq_true, List.isPrefixOf_iff_prefix]
  constructor
  · rintro ⟨⟨rest, rfl⟩, hrest⟩
    exact ⟨rest, rfl, by rwa [List.drop_left] at hrest⟩
  · rintro ⟨rest, rfl, hrest⟩
    exact ⟨List.prefix_append _ _, by rwa [List.drop_left]⟩

/-- **A pattern selects exactly the keys that it stands for**, those that come out of it when every
star is replaced by some text. -/
theorem Pattern.selects_iff_glob (p : Pattern) (key : String) :
    p.selects key = true ↔ Glob p.text.toList key.toList := by
  have hjoined : joined ['*'] p.parts = p.text.toList := joined_pieces _ _
  have hparts : ∀ part ∈ p.parts, '*' ∉ part := fun _ => not_mem_of_mem_pieces
  cases hp : p.parts with
  | nil => exact absurd hp (pieces_ne_nil _ _)
  | cons first parts =>
    rw [hp] at hjoined hparts
    have hfirst : '*' ∉ first := hparts first List.mem_cons_self
    cases parts with
    | nil =>
      have htext : first = p.text.toList := hjoined
      rw [selects, hp, ← htext, glob_iff_eq hfirst, htext, String.toList_inj, beq_iff_eq]
    | cons next parts =>
      have hglob : first ++ '*' :: joined ['*'] (next :: parts) = p.text.toList := by
        rw [← hjoined]
        simp [joined]
      have hends := endsThrough_iff (List.cons_ne_nil next parts)
        fun part hpart => hparts part (List.mem_cons_of_mem _ hpart)
      rw [selects, hp, isPrefixOf_and_drop_iff, ← hglob, glob_append_iff hfirst]
      simp only [hends, glob_star_iff]

-- The first and the last part may not overlap, and stars side by side count as one.
example : (Pattern.mk "a*a").selects "a" = false ∧
    (Pattern.mk "**ab**c*").selects "xabac" = true := by
  decide

end TraceWeave.Query
