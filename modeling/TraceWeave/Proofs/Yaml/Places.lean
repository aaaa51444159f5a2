import TraceWeave.Text.Ascii
import TraceWeave.Yaml.Written

/-!
# Located texts

What the readers of a document ask of the characters in front of them, for a text whose first
place is known: only the first character and its column count.

* `Outdented`: what may follow the lines of a value;
* `sourceOf?_of_isPrintable`: a text of characters that can be shown is a document as it is.
-/

namespace TraceWeave.Yaml

open TraceWeave.Text

variable {line column offset : Nat} {c : Char} {cs : List Char}

theorem locate_cons (h : isBreak c = false) : locate line column offset (c :: cs) =
    ⟨c, line, column, offset⟩ :: locate line (column + 1) (offset + c.utf8Size) cs := by
  rw [locate, h]
  rfl

theorem locate_break (h : isBreak c = true) : locate line column offset (c :: cs) =
    ⟨c, line, column, offset⟩ :: locate (line + 1) 0 0 cs := by
  rw [locate, h]
  rfl

@[simp] theorem length_locate : (locate line column offset cs).length = cs.length := by
  have hchars := congrArg List.length (map_char_locate line column offset cs)
  rwa [List.length_map] at hchars

@[simp] theorem atBlank_locate :
    atBlank (locate line column offset (c :: cs)) = isSeparation c := rfl

/-- A marker begins a line with its character. -/
theorem atMarker_eq_false {p : Place} (h : 0 < p.column ∨ p.char ≠ c) (rest : Source) :
    atMarker c (p :: rest) = false := by
  have hfirst : (p.column == 0 && p.char == c) = false := by
    rcases h with h | h
    · simp [Nat.ne_of_gt h]
    · simp [h]
  rcases rest with - | ⟨q, - | ⟨r, rest⟩⟩
  · rfl
  · rfl
  · rw [atMarker, hfirst, Bool.false_and, Bool.false_and, Bool.false_and]

theorem atDocumentMarker_of_column {p : Place} (h : 0 < p.column) (rest : Source) :
    atDocumentMarker (p :: rest) = false := by
  rw [atDocumentMarker, atMarker_eq_false (.inl h), atMarker_eq_false (.inl h), Bool.or_self]

/-! ## Classes of characters -/

theorem isSeparation_eq_false_iff :
    isSeparation c = false ↔ c ≠ ' ' ∧ c ≠ '\t' ∧ isBreak c = false := by
  simp [isSeparation, isGap, and_assoc]

theorem isSeparation_of_isBreak (h : isBreak c = true) : isSeparation c = true := by
  rw [isSeparation, h, Bool.or_true]

/-- The characters of keys. -/
def isWordChar (c : Char) : Bool :=
  c.isLower || c == '_'

theorem ne_of_isWordChar {d : Char} (h : isWordChar c = true) (hd : isWordChar d = false) :
    c ≠ d := by
  rintro rfl
  rw [h] at hd
  exact absurd hd (by decide)

theorem isBreak_of_isWordChar (h : isWordChar c = true) : isBreak c = false := by
  simp [isBreak, ne_of_isWordChar h (show isWordChar '\n' = false by decide),
    ne_of_isWordChar h (show isWordChar '\u2028' = false by decide),
    ne_of_isWordChar h (show isWordChar '\u2029' = false by decide)]

theorem isSeparation_of_isWordChar (h : isWordChar c = true) : isSeparation c = false :=
  isSeparation_eq_false_iff.mpr ⟨ne_of_isWordChar h (by decide), ne_of_isWordChar h (by decide),
    isBreak_of_isWordChar h⟩

theorem isPrintable_of_isWordChar (h : isWordChar c = true) : Written.isPrintable c = true := by
  rw [isWordChar, Bool.or_eq_true, beq_iff_eq] at h
  rcases h with h | rfl
  · have hcode := isLower_iff.mp h
    simp only [Written.isPrintable, Bool.or_eq_true, Bool.and_eq_true, decide_eq_true_eq]
    omega
  · decide

/-! ## Indentation -/

/-- Nothing, or a line that begins with a word to the left of a column. -/
inductive Outdented (margin : Nat) : List Char → Prop
  | nil : Outdented margin []
  | line {n : Nat} {c : Char} {cs : List Char} (hn : n < margin) (hc : isWordChar c = true) :
    Outdented margin (List.replicate n ' ' ++ c :: cs)

/-- What follows the spaces in front. -/
def afterIndent (source : Source) : Source :=
  source.dropWhile (·.char == ' ')

theorem afterIndent_spaces (n : Nat) (hc : c ≠ ' ') :
    afterIndent (locate line column offset (List.replicate n ' ' ++ c :: cs)) =
      locate line (column + n) (offset + n) (c :: cs) := by
  induction n generalizing column offset with
  | zero =>
    rw [List.replicate_zero, List.nil_append, afterIndent, locate,
      List.dropWhile_cons_of_neg (by simpa using hc)]
    rfl
  | succ n ih =>
    rw [List.replicate_succ, List.cons_append, locate_cons rfl, afterIndent,
      List.dropWhile_cons_of_pos rfl]
    simp only [afterIndent] at ih
    rw [ih, show ' '.utf8Size = 1 from rfl, Nat.add_assoc, Nat.add_assoc, Nat.add_comm 1 n]

/-! ## Documents -/

theorem isAllowed_of_isPrintable (h : Written.isPrintable c = true) : isAllowed c = true := by
  simp only [Written.isPrintable, isAllowed, Bool.or_eq_true, Bool.and_eq_true, decide_eq_true_eq,
    beq_iff_eq, bne_iff_ne] at h ⊢
  omega

theorem unified_of_isPrintable (h : ∀ c ∈ cs, Written.isPrintable c = true) : unified cs = cs := by
  induction cs with
  | nil => rfl
  | cons c cs ih =>
    have hc := h c List.mem_cons_self
    have hreturn : c ≠ '\r' := by
      rintro rfl
      exact absurd hc (by decide)
    have hnext : c ≠ '\u0085' := by
      rintro rfl
      exact absurd hc (by decide)
    rw [unified, if_neg (not_or.mpr ⟨hreturn, hnext⟩),
      ih fun d hd => h d (List.mem_cons_of_mem _ hd)]
    exact fun _ heq => absurd heq hreturn

theorem sourceOf?_of_isPrintable (h : ∀ c ∈ cs, Written.isPrintable c = true) :
    sourceOf? cs = some (locate 0 0 0 cs) := by
  have hallowed : cs.all isAllowed = true :=
    List.all_eq_true.mpr fun c hc => isAllowed_of_isPrintable (h c hc)
  rw [sourceOf?, if_pos hallowed, unified_of_isPrintable h]

end TraceWeave.Yaml
