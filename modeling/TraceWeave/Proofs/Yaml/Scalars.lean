import TraceWeave.Proofs.Yaml.Places
import TraceWeave.Yaml.Scalar

/-!
# Written scalars are read back

Each reader takes the characters one by one and keeps the white space that it has passed since the
last one. What is written lets it keep nothing but spaces, or line breaks and the indentation
behind them, and folding such white space gives back what stood there.

* `plain_text`: plain text;
* `singleQuoted_text`, `doubleQuoted_rest`: text between quotation marks.
-/

namespace TraceWeave.Yaml

open TraceWeave.Text Written

variable {line column offset margin : Nat} {c : Char} {gap cs rest : List Char}

/-! ## Pairs of characters -/

section Pairs

variable {p q : Char → Bool} {d : Char}

theorem hasPair_of_cons (h : hasPair p q (c :: cs) = false) : hasPair p q cs = false := by
  cases cs with
  | nil => rfl
  | cons d cs =>
    rw [hasPair, Bool.or_eq_false_iff] at h
    exact h.2

theorem hasPair_of_append (before : List Char) (h : hasPair p q (before ++ cs) = false) :
    hasPair p q cs = false := by
  induction before with
  | nil => exact h
  | cons c before ih => exact ih (hasPair_of_cons h)

theorem second_of_hasPair (h : hasPair p q (c :: d :: cs) = false) (hc : p c = true) :
    q d = false := by
  rw [hasPair, Bool.or_eq_false_iff, hc, Bool.true_and] at h
  exact h.1

/-- What stands behind a gap of which every character has the first property. -/
theorem second_of_gap (h : hasPair p q (gap ++ c :: cs) = false) (hsome : gap ≠ [])
    (hgap : ∀ d ∈ gap, p d = true) : q c = false := by
  obtain ⟨before, d, rfl⟩ := (List.eq_nil_or_concat gap).resolve_left hsome
  rw [List.concat_eq_append, List.append_assoc] at h
  exact second_of_hasPair (hasPair_of_append before h) (hgap d (by simp))

end Pairs

/-! ## White space -/

theorem folded_of_no_break (h : ∀ c ∈ gap, isBreak c = false) : folded gap = gap := by
  have hnone : gap.filter isBreak = [] := by
    rw [List.filter_eq_nil_iff]
    intro c hc
    rw [h c hc]
    decide
  rw [folded, hnone]

theorem folded_spaces (h : ∀ c ∈ gap, c = ' ') : folded gap = gap := by
  refine folded_of_no_break fun c hc => ?_
  rw [h c hc]
  decide

/-! ## Plain scalars -/

/-- What is left of a plain text, with the spaces in front of it. -/
structure PlainRest (gap cs : List Char) : Prop where
  spaces : ∀ c ∈ gap, c = ' '
  inline : ∀ c ∈ cs, c ≠ '\t' ∧ isBreak c = false
  colon : hasPair (· == ':') isSeparation (cs ++ [' ']) = false
  comment : hasPair isSeparation (· == '#') (gap ++ cs) = false
  last : (gap ++ cs).getLast? ≠ some ' '

namespace PlainRest

theorem nil (h : PlainRest gap []) : gap = [] := by
  rcases List.eq_nil_or_concat gap with rfl | ⟨before, c, rfl⟩
  · rfl
  · have hlast := h.last
    rw [List.concat_eq_append, List.append_nil, List.getLast?_concat,
      h.spaces c (by simp)] at hlast
    exact absurd rfl hlast

theorem space (h : PlainRest gap (' ' :: cs)) : PlainRest (gap ++ [' ']) cs where
  spaces := by
    simp only [List.forall_mem_append, List.forall_mem_singleton]
    exact ⟨h.spaces, trivial⟩
  inline c hc := h.inline c (List.mem_cons_of_mem _ hc)
  colon := hasPair_of_cons h.colon
  comment := by
    rw [List.append_assoc]
    exact h.comment
  last := by
    rw [List.append_assoc]
    exact h.last

theorem next (h : PlainRest gap (c :: cs)) : PlainRest [] cs where
  spaces := List.forall_mem_nil _
  inline d hd := h.inline d (List.mem_cons_of_mem _ hd)
  colon := hasPair_of_cons h.colon
  comment := hasPair_of_cons (hasPair_of_append gap h.comment)
  last := by
    have hlast := h.last
    cases cs with
    | nil => simp
    | cons d cs =>
      simpa [List.getLast?_append, List.getLast?_cons] using hlast

theorem not_separation (h : PlainRest gap (c :: cs)) (hc : c ≠ ' ') : isSeparation c = false :=
  isSeparation_eq_false_iff.mpr ⟨hc, h.inline c List.mem_cons_self⟩

/-- A plain text goes on at a character that is no space. -/
theorem endsPlain_eq_false (h : PlainRest gap (c :: cs)) (hpos : 0 < margin)
    (hcolumn : margin ≤ column) :
    endsPlain false margin gap (locate line column offset (c :: cs ++ '\n' :: rest)) = false := by
  have hbreak := (h.inline c List.mem_cons_self).2
  have hcolon : c = ':' → atBlank (locate line (column + 1) (offset + c.utf8Size)
      (cs ++ '\n' :: rest)) = false := by
    rintro rfl
    have hfollowed := h.colon
    cases cs with
    | nil => exact absurd hfollowed (by decide)
    | cons d cs => exact second_of_hasPair hfollowed rfl
  have hcomment : gap ≠ [] → c ≠ '#' := by
    intro hgap
    have hspaces : ∀ d ∈ gap, isSeparation d = true := by
      intro d hd
      rw [h.spaces d hd]
      decide
    have hnot := second_of_gap h.comment hgap hspaces
    exact beq_eq_false_iff_ne.mp hnot
  have hleft : ¬column < margin := Nat.not_lt.mpr hcolumn
  rw [List.cons_append, locate_cons hbreak, endsPlain,
    atDocumentMarker_of_column (Nat.lt_of_lt_of_le hpos hcolumn)]
  by_cases hc : c = ':'
  · have hnext := hcolon hc
    subst hc
    simp [hleft, hnext]
  · by_cases hgap : gap = []
    · simp [hgap, hc]
    · simp [hleft, hcomment hgap, hc]

end PlainRest

theorem plain_separation {p : Place} {source : Source} (h : isSeparation p.char = true)
    (htab : p.char ≠ '\t') :
    plain false margin gap (p :: source) = plain false margin (gap ++ [p.char]) source := by
  rw [plain, if_pos h, if_neg (by simp [htab])]

theorem plain_char {p : Place} {source : Source} (h : isSeparation p.char = false)
    (hends : endsPlain false margin gap (p :: source) = false) :
    plain false margin gap (p :: source) = (plain false margin [] source).map
      fun (text, broken, rest) => (folded gap ++ p.char :: text, broken, rest) := by
  rw [plain, if_neg (by simp [h]), if_neg (by simp [hends]), if_neg (by simp)]
  cases plain false margin [] source <;> rfl

theorem plain_end {p : Place} {source : Source} (h : isSeparation p.char = false)
    (hends : endsPlain false margin gap (p :: source) = true) :
    plain false margin gap (p :: source) = some ([], gap.any isBreak, p :: source) := by
  rw [plain, if_neg (by simp [h]), if_pos hends]

/-- A plain text ends where the next line is indented too little. -/
theorem plain_indent {n : Nat} (hgap : gap.any isBreak = true) (hn : column + n < margin)
    (hc : isSeparation c = false) :
    plain false margin gap (locate line column offset (List.replicate n ' ' ++ c :: cs)) =
      some ([], true, locate line (column + n) (offset + n) (c :: cs)) := by
  induction n generalizing gap column offset with
  | zero =>
    have hbreak := (isSeparation_eq_false_iff.mp hc).2.2
    have hsome : gap ≠ [] := by
      rintro rfl
      exact absurd hgap (by decide)
    have hleft : column < margin := by omega
    have hends : endsPlain false margin gap (locate line column offset (c :: cs)) = true := by
      simp [locate_cons hbreak, endsPlain, hsome, hleft]
    rw [List.replicate_zero, List.nil_append, Nat.add_zero, Nat.add_zero]
    rw [locate_cons hbreak] at hends ⊢
    rw [plain_end hc hends, hgap]
  | succ n ih =>
    have hnext : (gap ++ [' ']).any isBreak = true := by
      rw [List.any_append, hgap, Bool.true_or]
    rw [List.replicate_succ, List.cons_append, locate_cons rfl, plain_separation rfl (by simp),
      ih hnext (by omega), show ' '.utf8Size = 1 from rfl, Nat.add_right_comm column 1 n,
      Nat.add_right_comm offset 1 n]
    rfl

theorem plain_lineEnd (hrest : Outdented margin rest) :
    plain false margin [] (locate line column offset ('\n' :: rest)) =
      some ([], true, afterIndent (locate (line + 1) 0 0 rest)) := by
  rw [locate_break rfl, plain_separation rfl (by simp)]
  cases hrest with
  | nil => rfl
  | line hn hc =>
    rw [afterIndent_spaces _ (ne_of_isWordChar hc (by decide))]
    exact plain_indent rfl (by omega) (isSeparation_of_isWordChar hc)

theorem plain_rest (h : PlainRest gap cs) (hpos : 0 < margin) (hcolumn : margin ≤ column)
    (hrest : Outdented margin rest) :
    plain false margin gap (locate line column offset (cs ++ '\n' :: rest)) =
      some (gap ++ cs, true, afterIndent (locate (line + 1) 0 0 rest)) := by
  induction cs generalizing gap column offset with
  | nil =>
    obtain rfl := h.nil
    exact plain_lineEnd hrest
  | cons c cs ih =>
    have hbreak := (h.inline c List.mem_cons_self).2
    by_cases hc : c = ' '
    · subst hc
      rw [List.cons_append, locate_cons hbreak, plain_separation rfl (by simp),
        ih h.space (by omega), List.append_assoc]
      rfl
    · have hends := @PlainRest.endsPlain_eq_false line column offset margin c gap cs rest h hpos
        hcolumn
      rw [List.cons_append, locate_cons hbreak] at hends ⊢
      rw [plain_char (h.not_separation hc) hends, ih h.next (by omega), folded_spaces h.spaces]
      rfl

theorem plainRest_of_canBePlain (h : canBePlain cs = true) : PlainRest [] cs := by
  simp only [canBePlain, needsEscapes, isIndicated, isFollowed, Bool.and_eq_true, Bool.not_eq_true',
    Bool.or_eq_false_iff] at h
  obtain ⟨⟨⟨hends, hbreak⟩, ⟨hprint, -⟩, -⟩, ⟨⟨-, hcolon⟩, hcomment⟩, -⟩ := h
  refine ⟨List.forall_mem_nil _, ?_, hcolon, hcomment, ?_⟩
  · intro c hc
    have hshown := List.any_eq_false.mp hprint c hc
    refine ⟨?_, by simpa using List.any_eq_false.mp hbreak c hc⟩
    rintro rfl
    exact hshown (by decide)
  · intro hlast
    rw [List.nil_append] at hlast
    rw [hlast, List.any_append, Bool.or_eq_false_iff] at hends
    exact absurd hends.2 (by decide)

theorem plain_text (h : canBePlain cs = true) (hpos : 0 < margin) (hcolumn : margin ≤ column)
    (hrest : Outdented margin rest) :
    plain false margin [] (locate line column offset (cs ++ '\n' :: rest)) =
      some (cs, true, afterIndent (locate (line + 1) 0 0 rest)) :=
  plain_rest (plainRest_of_canBePlain h) hpos hcolumn hrest

/-! ## Single quotation marks -/

section SingleQuoted

variable {p q : Place} {source : Source} {begun : Bool}

theorem singleQuoted_separation (h : isSeparation p.char = true) :
    singleQuoted gap (p :: source) = singleQuoted (gap ++ [p.char]) source := by
  rw [singleQuoted.eq_def]
  exact if_pos h

theorem singleQuoted_char (h : isSeparation p.char = false) (hcolumn : 0 < p.column)
    (hquote : p.char ≠ '\'') :
    singleQuoted gap (p :: source) =
      (singleQuoted [] source).map fun (text, rest) => (folded gap ++ p.char :: text, rest) := by
  have hmarker : ¬atDocumentMarker (p :: source) = true := by
    simp [atDocumentMarker_of_column hcolumn]
  rw [singleQuoted.eq_def]
  dsimp only
  rw [if_neg (by simp [h]), if_neg hmarker, if_neg hquote]
  cases singleQuoted [] source <;> rfl

theorem singleQuoted_doubled (hp : p.char = '\'') (hcolumn : 0 < p.column) (hq : q.char = '\'') :
    singleQuoted gap (p :: q :: source) =
      (singleQuoted [] source).map fun (text, rest) => (folded gap ++ '\'' :: text, rest) := by
  rw [singleQuoted.eq_2, if_neg (by rw [hp]; decide),
    if_neg (by simp [atDocumentMarker_of_column hcolumn]), if_pos hp, if_pos hq]
  cases singleQuoted [] source <;> rfl

theorem singleQuoted_end (hp : p.char = '\'') (hcolumn : 0 < p.column) (hq : q.char ≠ '\'') :
    singleQuoted gap (p :: q :: source) = some (folded gap, q :: source) := by
  rw [singleQuoted.eq_2, if_neg (by rw [hp]; decide),
    if_neg (by simp [atDocumentMarker_of_column hcolumn]), if_pos hp, if_neg hq]

theorem singleQuoted_spaces (n : Nat) :
    singleQuoted gap (locate line column offset (List.replicate n ' ' ++ cs)) =
      singleQuoted (gap ++ List.replicate n ' ') (locate line (column + n) (offset + n) cs) := by
  induction n generalizing gap column offset with
  | zero => rw [List.replicate_zero, List.append_nil, List.nil_append, Nat.add_zero, Nat.add_zero]
  | succ n ih =>
    rw [List.replicate_succ, List.cons_append, locate_cons rfl, singleQuoted_separation rfl, ih,
      List.append_assoc, show ' '.utf8Size = 1 from rfl, Nat.add_right_comm column 1 n,
      Nat.add_right_comm offset 1 n]
    rfl

/-- What is left of a text between single quotation marks, with the white space in front of it:
line breaks if a line has just begun, and spaces otherwise. -/
structure QuotedRest (begun : Bool) (gap cs : List Char) : Prop where
  breaks : begun = true → gap ≠ [] ∧ ∀ c ∈ gap, isBreak c = true ∧ c ≠ '\n'
  spaces : begun = false → ∀ c ∈ gap, c = ' '
  allowed : ∀ c ∈ cs, c ≠ '\n' ∧ c ≠ '\t'
  before : hasPair (· == ' ') isBreak (gap ++ cs) = false
  after : hasPair isBreak (· == ' ') (gap ++ cs) = false

namespace QuotedRest

theorem next (h : QuotedRest begun gap (c :: cs)) : QuotedRest false [] cs where
  breaks hbegun := absurd hbegun (by decide)
  spaces _ := List.forall_mem_nil _
  allowed d hd := h.allowed d (List.mem_cons_of_mem _ hd)
  before := hasPair_of_cons (hasPair_of_append gap h.before)
  after := hasPair_of_cons (hasPair_of_append gap h.after)

theorem gap_of_break (h : QuotedRest false gap (c :: cs)) (hc : isBreak c = true) : gap = [] := by
  by_cases hsome : gap = []
  · exact hsome
  · have hnot := second_of_gap h.before hsome fun d hd => beq_iff_eq.mpr (h.spaces rfl d hd)
    rw [hc] at hnot
    exact absurd hnot (by decide)

theorem not_begun_of_space (h : QuotedRest begun gap (' ' :: cs)) : begun = false := by
  cases begun with
  | false => rfl
  | true =>
    obtain ⟨hsome, hbreaks⟩ := h.breaks rfl
    have hnot := second_of_gap h.after hsome fun d hd => (hbreaks d hd).1
    exact absurd hnot (by decide)

theorem lineBreak (h : QuotedRest begun gap (c :: cs)) (hc : isBreak c = true) :
    QuotedRest true (gap ++ [c]) cs where
  breaks _ := by
    refine ⟨List.concat_ne_nil _ _, ?_⟩
    have hself := And.intro hc (h.allowed c List.mem_cons_self).1
    simp only [List.forall_mem_append, List.forall_mem_singleton]
    cases begun with
    | false =>
      rw [h.gap_of_break hc]
      exact ⟨List.forall_mem_nil _, hself⟩
    | true => exact ⟨(h.breaks rfl).2, hself⟩
  spaces hbegun := absurd hbegun (by decide)
  allowed d hd := h.allowed d (List.mem_cons_of_mem _ hd)
  before := by
    rw [List.append_assoc]
    exact h.before
  after := by
    rw [List.append_assoc]
    exact h.after

theorem space (h : QuotedRest begun gap (' ' :: cs)) : QuotedRest false (gap ++ [' ']) cs where
  breaks hbegun := absurd hbegun (by decide)
  spaces _ := by
    simp only [List.forall_mem_append, List.forall_mem_singleton]
    exact ⟨h.spaces h.not_begun_of_space, trivial⟩
  allowed d hd := h.allowed d (List.mem_cons_of_mem _ hd)
  before := by
    rw [List.append_assoc]
    exact h.before
  after := by
    rw [List.append_assoc]
    exact h.after

/-- Line breaks stay as they are when the indentation behind them is folded. -/
theorem folded_indented (h : QuotedRest begun gap cs) :
    folded (gap ++ indented margin begun) = gap := by
  cases begun with
  | false =>
    rw [indented, if_neg (by decide), List.append_nil]
    exact folded_spaces (h.spaces rfl)
  | true =>
    obtain ⟨hsome, hbreaks⟩ := h.breaks rfl
    have hgap : gap.filter isBreak = gap := List.filter_eq_self.mpr fun c hc => (hbreaks c hc).1
    have hspaces : (List.replicate margin ' ').filter isBreak = [] := by
      rw [List.filter_replicate_of_neg (by decide)]
    obtain ⟨first, others, rfl⟩ := List.exists_cons_of_ne_nil hsome
    rw [indented, if_pos rfl, folded, List.filter_append, hgap, hspaces, List.append_nil]
    exact if_pos (hbreaks first List.mem_cons_self).2

end QuotedRest

theorem singleQuoted_indented (hcolumn : begun = true ∨ 0 < column) (hpos : 0 < margin) :
    ∃ column' offset', 0 < column' ∧ ∀ cs,
      singleQuoted gap (locate line column offset (indented margin begun ++ cs)) =
        singleQuoted (gap ++ indented margin begun) (locate line column' offset' cs) := by
  cases begun with
  | false =>
    refine ⟨column, offset, hcolumn.resolve_left (by decide), fun cs => ?_⟩
    rw [indented, if_neg (by decide), List.append_nil, List.nil_append]
  | true => exact ⟨column + margin, offset + margin, by omega, fun cs => singleQuoted_spaces margin⟩

theorem singleQuoted_rest (h : QuotedRest begun gap cs) (hcolumn : begun = true ∨ 0 < column)
    (hpos : 0 < margin) :
    ∃ line' column' offset', singleQuoted gap (locate line column offset
      (singleQuotedBody margin begun cs ++ '\'' :: '\n' :: rest)) =
        some (gap ++ cs, locate line' column' offset' ('\n' :: rest)) := by
  induction cs generalizing begun gap line column offset with
  | nil =>
    obtain ⟨column', offset', hcolumn', hread⟩ :=
      @singleQuoted_indented line column offset margin gap begun hcolumn hpos
    refine ⟨line, column' + 1, offset' + '\''.utf8Size, ?_⟩
    rw [singleQuotedBody, hread, locate_cons rfl, locate_break rfl,
      singleQuoted_end rfl hcolumn' (by simp), h.folded_indented, List.append_nil]
  | cons c cs ih =>
    rw [singleQuotedBody]
    split
    · next hc =>
      obtain ⟨line', column', offset', hread⟩ := ih (h.lineBreak hc) (.inl rfl)
      refine ⟨line', column', offset', ?_⟩
      rw [List.cons_append, locate_break hc, singleQuoted_separation (isSeparation_of_isBreak hc),
        hread, List.append_assoc]
      rfl
    · next hbreak =>
      have hbreak := Bool.eq_false_iff.mpr hbreak
      split
      · next hc =>
        subst hc
        obtain ⟨line', column', offset', hread⟩ := ih h.space (.inr (Nat.succ_pos column))
        refine ⟨line', column', offset', ?_⟩
        rw [h.not_begun_of_space, List.cons_append, locate_cons hbreak, singleQuoted_separation rfl,
          hread, List.append_assoc]
        rfl
      · next hspace =>
        have hsep : isSeparation c = false :=
          isSeparation_eq_false_iff.mpr ⟨hspace, (h.allowed c List.mem_cons_self).2, hbreak⟩
        obtain ⟨column', offset', hcolumn', hindent⟩ :=
          @singleQuoted_indented line column offset margin gap begun hcolumn hpos
        rw [List.append_assoc, List.append_assoc, hindent]
        split
        · next hc =>
          subst hc
          obtain ⟨line', column'', offset'', hread⟩ := ih h.next (.inr (Nat.succ_pos (column' + 1)))
          refine ⟨line', column'', offset'', ?_⟩
          rw [List.cons_append, locate_cons rfl, List.singleton_append, locate_cons rfl,
            singleQuoted_doubled rfl hcolumn' rfl, hread, h.folded_indented]
          rfl
        · next hc =>
          obtain ⟨line', column'', offset'', hread⟩ := ih h.next (.inr (Nat.succ_pos column'))
          refine ⟨line', column'', offset'', ?_⟩
          rw [List.singleton_append, locate_cons hbreak, singleQuoted_char hsep hcolumn' hc, hread,
            h.folded_indented]
          rfl

theorem singleQuoted_text (h : needsEscapes cs = false) (hline : '\n' ∉ cs) (hcolumn : 0 < column)
    (hpos : 0 < margin) :
    ∃ line' column' offset', singleQuoted [] (locate line column offset
      (singleQuotedBody margin false cs ++ '\'' :: '\n' :: rest)) =
        some (cs, locate line' column' offset' ('\n' :: rest)) := by
  simp only [needsEscapes, Bool.or_eq_false_iff] at h
  obtain ⟨⟨hprint, hbefore⟩, hafter⟩ := h
  have hallowed : ∀ c ∈ cs, c ≠ '\n' ∧ c ≠ '\t' := by
    intro c hc
    have hshown := List.any_eq_false.mp hprint c hc
    constructor
    · rintro rfl
      exact hline hc
    · rintro rfl
      exact hshown (by decide)
  have hrest : QuotedRest false [] cs :=
    ⟨fun h => absurd h (by decide), fun _ => List.forall_mem_nil _, hallowed, hbefore, hafter⟩
  exact singleQuoted_rest hrest (.inr hcolumn) hpos

end SingleQuoted

/-! ## Codes of characters -/

theorem value?_upperDigit : ∀ n, n < 16 → Hex.value? (upperDigit n) = some n := by
  decide

theorem isBreak_upperDigit : ∀ n, n < 16 → isBreak (upperDigit n) = false := by
  decide

theorem mapM_codeDigits (width n : Nat) :
    ∃ digits, (codeDigits width n).mapM Hex.value? = some digits ∧
      digits.foldl (fun n digit => 16 * n + digit) 0 = n % Nat.pow 16 width := by
  induction width generalizing n with
  | zero => exact ⟨[], rfl, by simp [Nat.mod_one]⟩
  | succ width ih =>
    obtain ⟨digits, hdigits, hvalue⟩ := ih (n / 16)
    have hlast := value?_upperDigit (n % 16) (Nat.mod_lt _ (by decide))
    refine ⟨digits ++ [n % 16], ?_, ?_⟩
    · rw [codeDigits, List.mapM_append, hdigits]
      simp [hlast]
    · have hpow : Nat.pow 16 (width + 1) = 16 * Nat.pow 16 width :=
        (Nat.pow_succ 16 width).trans (Nat.mul_comm _ _)
      rw [List.foldl_append, hvalue, hpow, Nat.mod_mul]
      simp only [List.foldl_cons, List.foldl_nil]
      omega

theorem ofCode?_codeDigits {width : Nat} (h : c.toNat < Nat.pow 16 width) :
    ofCode? (codeDigits width c.toNat) = some c := by
  obtain ⟨digits, hdigits, hvalue⟩ := mapM_codeDigits width c.toNat
  rw [Nat.mod_eq_of_lt h] at hvalue
  have hvalid : c.toNat.isValidChar := c.valid
  rw [ofCode?, hdigits, Option.bind_eq_bind, Option.bind_some]
  have hchar : Char.ofNatAux c.toNat hvalid = c := by
    have hnat := Char.ofNat_toNat c
    rwa [Char.ofNat, dif_pos hvalid] at hnat
  dsimp only
  rw [hvalue, dif_pos hvalid, hchar]

theorem isBreak_codeDigits (width n : Nat) : ∀ c ∈ codeDigits width n, isBreak c = false := by
  induction width generalizing n with
  | zero => exact List.forall_mem_nil _
  | succ width ih =>
    rw [codeDigits, List.forall_mem_append]
    refine ⟨ih _, ?_⟩
    simpa using isBreak_upperDigit (n % 16) (Nat.mod_lt _ (by decide))

theorem length_codeDigits (width n : Nat) : (codeDigits width n).length = width := by
  induction width generalizing n with
  | zero => rfl
  | succ width ih => rw [codeDigits, List.length_append, ih, List.length_singleton]

/-- The characters that are written as a letter behind a backslash. -/
def lettered : List Char :=
  ['\u0000', '\u0007', '\u0008', '\t', '\n', '\u000b', '\u000c', '\r', '\u001b', '"', '\\',
    '\u0085', '\u2028', '\u2029']

theorem escape_lettered (h : c ∈ lettered) : ∃ letter, escape c = ['\\', letter] ∧
    escapeWidth? letter = none ∧ escape? letter = some c ∧ isBreak letter = false := by
  simp only [lettered, List.mem_cons, List.not_mem_nil, or_false] at h
  rcases h with rfl | rfl | rfl | rfl | rfl | rfl | rfl | rfl | rfl | rfl | rfl | rfl | rfl | rfl
  all_goals exact ⟨_, rfl, rfl, rfl, rfl⟩

theorem escape_code (h : c ∉ lettered) : escape c = '\\' ::
    if c.toNat ≤ 0xFF then 'x' :: codeDigits 2 c.toNat else 'u' :: codeDigits 4 c.toNat := by
  simp only [lettered, List.mem_cons, List.not_mem_nil, or_false, not_or] at h
  simp only [escape, h, if_false]

theorem lt_of_not_shown (hescape : (isPrintable c && !isBreak c && c != '"' && c != '\\') = false)
    (h : c ∉ lettered) : c.toNat < 0x1_0000 := by
  simp only [lettered, List.mem_cons, List.not_mem_nil, or_false, not_or] at h
  have hprint : isPrintable c = false := by simpa [isBreak, h] using hescape
  simp only [isPrintable, Bool.or_eq_false_iff, decide_eq_false_iff_not] at hprint
  omega

/-! ## Double quotation marks -/

/-- A character between double quotation marks. -/
def doubleQuotedChar (c : Char) : List Char :=
  if isPrintable c && !isBreak c && c != '"' && c != '\\' then [c] else escape c

theorem doubleQuoted_eq (cs : List Char) :
    Written.doubleQuoted cs = '"' :: cs.flatMap doubleQuotedChar ++ ['"'] := rfl

section DoubleQuoted

variable {p q : Place} {source : Source} {letter : Char}

theorem doubleQuoted_separation (h : isSeparation p.char = true) :
    doubleQuoted gap false 0 [] (p :: source) =
      doubleQuoted (gap ++ [p.char]) false 0 [] source := by
  rw [doubleQuoted.eq_def]
  exact if_pos h

theorem doubleQuoted_char (h : isSeparation p.char = false) (hcolumn : 0 < p.column)
    (hquote : p.char ≠ '"') (hslash : p.char ≠ '\\') :
    doubleQuoted gap false 0 [] (p :: source) = (doubleQuoted [] false 0 [] source).map
      fun (text, rest) => (folded gap ++ p.char :: text, rest) := by
  have hmarker : ¬atDocumentMarker (p :: source) = true := by
    simp [atDocumentMarker_of_column hcolumn]
  rw [doubleQuoted.eq_def]
  dsimp only
  rw [if_neg (by decide), if_neg (by decide), if_neg (by simp [h]), if_neg hmarker,
    if_neg hquote, if_neg hslash]
  cases doubleQuoted [] false 0 [] source <;> rfl

theorem doubleQuoted_end (hp : p.char = '"') (hcolumn : 0 < p.column) :
    doubleQuoted gap false 0 [] (p :: source) = some (folded gap, source) := by
  have hmarker : ¬atDocumentMarker (p :: source) = true := by
    simp [atDocumentMarker_of_column hcolumn]
  rw [doubleQuoted.eq_def]
  dsimp only
  rw [if_neg (by decide), if_neg (by decide), if_neg (by rw [hp]; decide), if_neg hmarker,
    if_pos hp]
  rfl

theorem doubleQuoted_slash (hp : p.char = '\\') (hcolumn : 0 < p.column)
    (hq : isBreak q.char = false) :
    doubleQuoted gap false 0 [] (p :: q :: source) =
      match escapeWidth? q.char with
      | some width => doubleQuoted gap false width [] source
      | none => (escape? q.char).bind fun c => (doubleQuoted [] false 0 [] source).map
          fun (text, rest) => (folded gap ++ c :: text, rest) := by
  have hmarker : ¬atDocumentMarker (p :: q :: source) = true := by
    simp [atDocumentMarker_of_column hcolumn]
  rw [doubleQuoted.eq_def]
  dsimp only
  rw [if_neg (by decide), if_neg (by decide), if_neg (by rw [hp]; decide), if_neg hmarker,
    if_neg (by rw [hp]; decide), if_pos hp, if_neg (by simp [hq])]
  cases escapeWidth? q.char with
  | some width => rfl
  | none =>
    cases escape? q.char with
    | none => rfl
    | some c => cases doubleQuoted [] false 0 [] source <;> rfl

/-- The digits of a code are taken together. -/
theorem doubleQuoted_code {digits code : List Char} (hcode : code ≠ [])
    (hbreak : ∀ d ∈ code, isBreak d = false) (hc : ofCode? (digits ++ code) = some c) :
    ∃ column' offset', column ≤ column' ∧ ∀ cs,
      doubleQuoted gap false code.length digits (locate line column offset (code ++ cs)) =
        (doubleQuoted [] false 0 [] (locate line column' offset' cs)).map
          fun (text, rest) => (folded gap ++ c :: text, rest) := by
  induction code generalizing digits column offset with
  | nil => exact absurd rfl hcode
  | cons d code ih =>
    have hd := hbreak d List.mem_cons_self
    cases code with
    | nil =>
      refine ⟨column + 1, offset + d.utf8Size, Nat.le_succ _, fun cs => ?_⟩
      rw [List.cons_append, locate_cons hd, doubleQuoted.eq_def]
      dsimp only [List.length_singleton]
      rw [if_neg (by decide), if_pos rfl, hc, List.nil_append]
      cases doubleQuoted [] false 0 [] (locate line (column + 1) (offset + d.utf8Size) cs) <;> rfl
    | cons e code =>
      have hnext : ofCode? ((digits ++ [d]) ++ (e :: code)) = some c := by
        rw [List.append_assoc]
        exact hc
      obtain ⟨column', offset', hle, hread⟩ := @ih (column + 1) (offset + d.utf8Size) _
        (List.cons_ne_nil _ _) (fun x hx => hbreak x (List.mem_cons_of_mem _ hx)) hnext
      refine ⟨column', offset', by omega, fun cs => ?_⟩
      rw [List.cons_append, locate_cons hd, doubleQuoted.eq_def]
      dsimp only
      rw [if_pos (by simp), ← hread]
      rfl

theorem doubleQuoted_escape
    (hescape : (isPrintable c && !isBreak c && c != '"' && c != '\\') = false)
    (hcolumn : 0 < column) :
    ∃ column' offset', 0 < column' ∧ ∀ cs,
      doubleQuoted gap false 0 [] (locate line column offset (escape c ++ cs)) =
        (doubleQuoted [] false 0 [] (locate line column' offset' cs)).map
          fun (text, rest) => (folded gap ++ c :: text, rest) := by
  by_cases hlettered : c ∈ lettered
  · obtain ⟨letter, hwritten, hwidth, hletter, hbreak⟩ := escape_lettered hlettered
    refine ⟨column + 1 + 1, offset + '\\'.utf8Size + letter.utf8Size, Nat.succ_pos _, fun cs => ?_⟩
    rw [hwritten, List.cons_append, List.singleton_append, locate_cons rfl, locate_cons hbreak,
      doubleQuoted_slash rfl hcolumn hbreak]
    dsimp only
    rw [hwidth]
    dsimp only
    rw [hletter, Option.bind_some]
  · obtain ⟨letter, width, hwritten, hwidth, hpos, hlt, hbreak⟩ : ∃ letter width,
        escape c = '\\' :: letter :: codeDigits width c.toNat ∧ escapeWidth? letter = some width ∧
          0 < width ∧ c.toNat < Nat.pow 16 width ∧ isBreak letter = false := by
      rw [escape_code hlettered]
      split
      · exact ⟨'x', 2, rfl, rfl, by decide, show c.toNat < 0x100 by omega, rfl⟩
      · exact ⟨'u', 4, rfl, rfl, by decide, lt_of_not_shown hescape hlettered, rfl⟩
    have hlength := length_codeDigits width c.toNat
    have hsome : codeDigits width c.toNat ≠ [] := by
      intro hnil
      rw [hnil, List.length_nil] at hlength
      omega
    have hcode : ofCode? ([] ++ codeDigits width c.toNat) = some c := ofCode?_codeDigits hlt
    obtain ⟨column', offset', hle, hread⟩ := @doubleQuoted_code line (column + 1 + 1)
      (offset + '\\'.utf8Size + letter.utf8Size) c gap [] _ hsome
      (isBreak_codeDigits width c.toNat) hcode
    refine ⟨column', offset', by omega, fun cs => ?_⟩
    rw [hwritten, List.cons_append, List.cons_append, locate_cons rfl, locate_cons hbreak,
      doubleQuoted_slash rfl hcolumn hbreak]
    dsimp only
    rw [hwidth, ← hread, hlength]

theorem doubleQuoted_rest (hgap : ∀ c ∈ gap, c = ' ') (hcolumn : 0 < column) :
    ∃ column' offset', doubleQuoted gap false 0 [] (locate line column offset
      (cs.flatMap doubleQuotedChar ++ '"' :: rest)) =
        some (gap ++ cs, locate line column' offset' rest) := by
  induction cs generalizing gap column offset with
  | nil =>
    refine ⟨column + 1, offset + '"'.utf8Size, ?_⟩
    rw [List.flatMap_nil, List.nil_append, locate_cons rfl, doubleQuoted_end rfl hcolumn,
      folded_spaces hgap, List.append_nil]
  | cons c cs ih =>
    rw [List.flatMap_cons, List.append_assoc, doubleQuotedChar]
    split
    · next hshown =>
      simp only [Bool.and_eq_true, Bool.not_eq_true', bne_iff_ne] at hshown
      obtain ⟨⟨⟨hprint, hbreak⟩, hquote⟩, hslash⟩ := hshown
      rw [List.singleton_append, locate_cons hbreak]
      by_cases hc : c = ' '
      · subst hc
        have hnext : ∀ c ∈ gap ++ [' '], c = ' ' := by
          simp only [List.forall_mem_append, List.forall_mem_singleton]
          exact ⟨hgap, trivial⟩
        obtain ⟨column', offset', hread⟩ := ih hnext (Nat.succ_pos column)
        refine ⟨column', offset', ?_⟩
        rw [doubleQuoted_separation rfl, hread, List.append_assoc]
        rfl
      · have htab : c ≠ '\t' := by
          rintro rfl
          exact absurd hprint (by decide)
        have hsep : isSeparation c = false := isSeparation_eq_false_iff.mpr ⟨hc, htab, hbreak⟩
        obtain ⟨column', offset', hread⟩ := ih (List.forall_mem_nil _) (Nat.succ_pos column)
        refine ⟨column', offset', ?_⟩
        rw [doubleQuoted_char hsep hcolumn hquote hslash, hread, folded_spaces hgap]
        rfl
    · next hescape =>
      obtain ⟨column', offset', hpos, hstep⟩ := @doubleQuoted_escape line column offset c gap
        (Bool.eq_false_iff.mpr hescape) hcolumn
      obtain ⟨column'', offset'', hread⟩ := ih (List.forall_mem_nil _) hpos
      refine ⟨column'', offset'', ?_⟩
      rw [hstep, hread, folded_spaces hgap]
      rfl

end DoubleQuoted

end TraceWeave.Yaml
