import TraceWeave.Proofs.Yaml.Tokens

/-!
# Characters of written values

A document is refused if it has a character that cannot be shown. What is written has none: such
characters are escaped, and a text that has any is quoted.

* `printable_escape`: escapes hold letters and digits only;
* `Denotes.printable`: a value in any of the ways to write it.
-/

namespace TraceWeave.Yaml

open TraceWeave.Text Written

variable {cs : List Char} {margin : Nat}

theorem printable_indented (begun : Bool) : ∀ c ∈ indented margin begun, isPrintable c = true := by
  intro c hc
  unfold indented at hc
  split at hc
  · rw [List.eq_of_mem_replicate hc]
    decide
  · cases hc

theorem printable_singleQuotedBody (h : ∀ c ∈ cs, isPrintable c = true) (begun : Bool) :
    ∀ c ∈ singleQuotedBody margin begun cs, isPrintable c = true := by
  induction cs generalizing begun with
  | nil => exact printable_indented begun
  | cons c cs ih =>
    obtain ⟨hc, hcs⟩ := List.forall_mem_cons.mp h
    rw [singleQuotedBody]
    split
    · exact List.forall_mem_cons.mpr ⟨hc, ih hcs true⟩
    · split
      · exact List.forall_mem_cons.mpr ⟨hc, ih hcs begun⟩
      · simp only [List.forall_mem_append]
        refine ⟨⟨printable_indented begun, ?_⟩, ih hcs false⟩
        split
        · exact List.all_eq_true.mp rfl
        · simpa using hc

theorem printable_blockBody (h : ∀ c ∈ cs, isPrintable c = true) (begun : Bool) :
    ∀ c ∈ blockBody margin begun cs, isPrintable c = true := by
  induction cs generalizing begun with
  | nil =>
    rw [blockBody]
    cases begun with
    | false => exact List.forall_mem_singleton.mpr (by decide)
    | true => exact List.forall_mem_nil _
  | cons c cs ih =>
    obtain ⟨hc, hcs⟩ := List.forall_mem_cons.mp h
    rw [blockBody]
    split
    · exact List.forall_mem_cons.mpr ⟨hc, ih hcs true⟩
    · simp only [List.forall_mem_append, List.forall_mem_cons]
      exact ⟨printable_indented begun, hc, ih hcs false⟩

theorem printable_codeDigits (width n : Nat) : ∀ c ∈ codeDigits width n, isPrintable c = true := by
  have hdigit : ∀ n, n < 16 → isPrintable (upperDigit n) = true := by decide
  induction width generalizing n with
  | zero => exact List.forall_mem_nil _
  | succ width ih =>
    simp only [codeDigits, List.forall_mem_append, List.forall_mem_singleton]
    exact ⟨ih _, hdigit _ (Nat.mod_lt _ (by decide))⟩

theorem printable_escape (c : Char) : ∀ d ∈ escape c, isPrintable d = true := by
  have hlettered : lettered.all (fun c => (escape c).all isPrintable) = true := by decide
  by_cases hc : c ∈ lettered
  · exact List.all_eq_true.mp (List.all_eq_true.mp hlettered c hc)
  · rw [escape_code hc]
    refine List.forall_mem_cons.mpr ⟨by decide, ?_⟩
    split
    · exact List.forall_mem_cons.mpr ⟨by decide, printable_codeDigits _ _⟩
    · exact List.forall_mem_cons.mpr ⟨by decide, printable_codeDigits _ _⟩

theorem printable_doubleQuoted (cs : List Char) :
    ∀ c ∈ Written.doubleQuoted cs, isPrintable c = true := by
  have hbody : ∀ c ∈ cs.flatMap doubleQuotedChar, isPrintable c = true := by
    intro d hd
    obtain ⟨c, -, hd⟩ := List.mem_flatMap.mp hd
    unfold doubleQuotedChar at hd
    split at hd
    · next hshown =>
      simp only [Bool.and_eq_true] at hshown
      rw [List.mem_singleton.mp hd]
      exact hshown.1.1.1
    · exact printable_escape c d hd
  rw [doubleQuoted_eq, List.forall_mem_append, List.forall_mem_cons,
    List.forall_mem_singleton]
  exact ⟨⟨by decide, hbody⟩, by decide⟩

theorem printable_chompingMark (cs : List Char) : ∀ c ∈ chompingMark cs, isPrintable c = true := by
  rw [← List.all_eq_true]
  unfold chompingMark
  split
  · decide
  · split <;> decide
  · split
    · decide
    · split <;> decide

theorem printable_literalBlock (h : ∀ c ∈ cs, isPrintable c = true) :
    ∀ c ∈ literalBlock margin cs, isPrintable c = true := by
  simp only [literalBlock, List.forall_mem_append, List.forall_mem_cons]
  refine ⟨⟨⟨by decide, ?_⟩, printable_chompingMark cs⟩, by decide, printable_blockBody h true⟩
  split <;> exact List.all_eq_true.mp rfl

theorem printable_of_any (h : cs.any (!isPrintable ·) = false) :
    ∀ c ∈ cs, isPrintable c = true := by
  simpa using h

theorem printable_of_needsEscapes (h : needsEscapes cs = false) :
    ∀ c ∈ cs, isPrintable c = true := by
  rw [needsEscapes, Bool.or_eq_false_iff, Bool.or_eq_false_iff] at h
  exact printable_of_any h.1.1

/-- All that is written can be shown. -/
theorem Denotes.printable {written text : List Char} {style : Style}
    (h : Denotes margin written style text) : ∀ c ∈ written, isPrintable c = true := by
  cases h with
  | plain hsome htext =>
    simp only [canBePlain, Bool.and_eq_true, Bool.not_eq_true'] at htext
    exact List.forall_mem_append.mpr ⟨printable_of_needsEscapes htext.1.2,
      List.forall_mem_singleton.mpr (by decide)⟩
  | single hline htext =>
    have hbody :=
      @printable_singleQuotedBody text (margin + 1) (printable_of_needsEscapes htext) false
    rw [Written.singleQuoted, List.forall_mem_append, List.forall_mem_append, List.forall_mem_cons,
      List.forall_mem_singleton, List.forall_mem_singleton]
    exact ⟨⟨⟨by decide, hbody⟩, by decide⟩, by decide⟩
  | double =>
    exact List.forall_mem_append.mpr ⟨printable_doubleQuoted text,
      List.forall_mem_singleton.mpr (by decide)⟩
  | literal hsome htext =>
    simp only [canBeBlock, Bool.and_eq_true, Bool.not_eq_true'] at htext
    exact printable_literalBlock (printable_of_any htext.1.2)

end TraceWeave.Yaml
