import TraceWeave.Proofs.Yaml.Blocks
import TraceWeave.Proofs.Yaml.Scalars
import TraceWeave.Yaml.Token

/-!
# The tokens of written lines

A line `key: value` takes the scanner through the tokens of a key, of its text, of a value and of
the scalar. Between lines the scanner holds no candidate and no bracket is open, so all that
matters is the tokens so far, the columns of the open collections and whether a key may begin.

* `Leads`: what so many tokens do to the scanner, whatever fuel there is;
* `leads_key`: a key up to its colon;
* `Denotes`, `leads_value`: the ways to write a value, and each of them up to the next line.
-/

namespace TraceWeave.Yaml

open TraceWeave.Text Written

namespace Scanner

variable {s s' s'' : Scanner} {source source' source'' : Source}
variable {line column offset margin : Nat} {c : Char} {cs rest : List Char}
variable {tokens : List Token} {columns : List Nat} {allowed : Bool}

/-- So many tokens lead from one place of a document to another. -/
def Leads (n : Nat) (s : Scanner) (source : Source) (s' : Scanner) (source' : Source) : Prop :=
  ∀ fuel, run? (fuel + n) s source = run? fuel s' source'

theorem Leads.trans {m n : Nat} (h : Leads m s source s' source')
    (h' : Leads n s' source' s'' source'') : Leads (m + n) s source s'' source'' := by
  intro fuel
  rw [Nat.add_comm m n, ← Nat.add_assoc, h, h']

theorem leads_space (h : s.skipSpace false source = s'.skipSpace false source') :
    Leads 0 s source s' source' := by
  intro fuel
  cases fuel with
  | zero => rfl
  | succ fuel => rw [Nat.add_zero, run?, run?, h]

theorem leads_token {p : Place} {s₁ s₂ : Scanner} {rest rest' : Source}
    (hskip : s.skipSpace false source = (s₁, p :: rest)) (hexpire : s₁.expire? p = some s₂)
    (htoken : (s₂.close (some p.column)).token? p rest = some (s', rest')) :
    Leads 1 s source s' rest' := by
  intro fuel
  rw [run?, hskip]
  simp only [hexpire, htoken, Option.bind_eq_bind, Option.bind_some]

/-! ## White space -/

theorem skipSpace_break (h : isBreak c = true) :
    (⟨tokens, columns, none, [], allowed⟩ : Scanner).skipSpace false
      (locate line column offset (c :: cs)) =
        (⟨tokens, columns, none, [], true⟩ : Scanner).skipSpace false
          (locate (line + 1) 0 0 cs) := by
  rw [locate_break h, skipSpace, if_pos h, allowKey, inFlow, List.isEmpty_nil, Bool.not_true,
    Bool.not_false, Bool.or_true]

theorem skipSpace_space :
    s.skipSpace false (locate line column offset (' ' :: cs)) =
      s.skipSpace false (locate line (column + 1) (offset + ' '.utf8Size) cs) := by
  rw [locate_cons rfl, skipSpace, if_neg (by simp [isBreak]), if_pos (by simp)]

theorem skipSpace_afterIndent : s.skipSpace false (afterIndent source) =
    s.skipSpace false source := by
  induction source with
  | nil => rfl
  | cons p source ih =>
    by_cases hp : p.char = ' '
    · rw [afterIndent, List.dropWhile_cons_of_pos (by simp [hp]), skipSpace,
        if_neg (by simp [hp, isBreak]), if_pos (by simp [hp])]
      exact ih
    · rw [afterIndent, List.dropWhile_cons_of_neg (by simp [hp])]

theorem skipSpace_stop (hsep : isSeparation c = false) (hcomment : c ≠ '#')
    (hmark : 0 < column ∨ c ≠ '\ufeff') :
    s.skipSpace false (locate line column offset (c :: cs)) =
      (s, locate line column offset (c :: cs)) := by
  obtain ⟨hspace, htab, hbreak⟩ := isSeparation_eq_false_iff.mp hsep
  have hmark : ¬(column = 0 ∧ c = '\ufeff') := by
    rintro ⟨rfl, rfl⟩
    rcases hmark with h | h
    · exact absurd h (Nat.lt_irrefl 0)
    · exact h rfl
  rw [locate_cons hbreak, skipSpace, if_neg (by simp [hbreak]),
    if_neg (by simp [hspace, htab, hmark]), if_neg (by simp [hcomment])]

theorem skipSpace_indent {n : Nat} (hsep : isSeparation c = false) (hcomment : c ≠ '#')
    (hmark : c ≠ '\ufeff') :
    s.skipSpace false (locate line column offset (List.replicate n ' ' ++ c :: cs)) =
      (s, locate line (column + n) (offset + n) (c :: cs)) := by
  rw [← skipSpace_afterIndent, afterIndent_spaces n (isSeparation_eq_false_iff.mp hsep).1]
  exact skipSpace_stop hsep hcomment (.inr hmark)

/-! ## Single tokens -/

section Token

variable {p : Place} {source' : Source} {text : List Char}

theorem token?_plain {broken : Bool} (hflow : s.inFlow = false)
    (hmark : 0 < p.column ∨ p.char ≠ '%' ∧ p.char ≠ '-' ∧ p.char ≠ '.')
    (hlead : p.char ∉ leadingIndicators) (hgap : isGap p.char = false)
    (hnext : atBlank source = true → p.char ≠ '-' ∧ p.char ≠ '?' ∧ p.char ≠ ':')
    (hoffer : s.offer? p = some s')
    (hplain : plain s'.inFlow s'.margin [] (p :: source) = some (text, broken, source')) :
    s.token? p source = some ((s'.allowKey broken).emit (.scalar .plain text), source') := by
  have hpercent : (p.column == 0 && p.char == '%') = false := by
    rcases hmark with h | h
    · simp [Nat.ne_of_gt h]
    · simp [h.1]
  have hstart : atMarker '-' (p :: source) = false :=
    atMarker_eq_false (hmark.imp id fun h => h.2.1) source
  have hend : atMarker '.' (p :: source) = false :=
    atMarker_eq_false (hmark.imp id fun h => h.2.2) source
  have hblank (c : Char) (hc : c = '-' ∨ c = '?' ∨ c = ':') :
      (p.char == c && atBlank source) = false := by
    cases hatBlank : atBlank source with
    | false => rw [Bool.and_false]
    | true =>
      have hne := hnext hatBlank
      rcases hc with rfl | rfl | rfl
      · simp [hne.1]
      · simp [hne.2.1]
      · simp [hne.2.2]
  simp only [leadingIndicators, List.mem_cons, List.not_mem_nil, or_false, not_or] at hlead
  have hmay : (!indicators.contains p.char && !isGap p.char || p.char == '-' ||
      (!s.inFlow && (p.char == '?' || p.char == ':'))) = true := by
    by_cases hthree : p.char = '-' ∨ p.char = '?' ∨ p.char = ':'
    · rcases hthree with h | h | h <;> simp [h, hflow]
    · rw [not_or, not_or] at hthree
      simp [indicators, hlead, hthree, hgap]
  rw [token?]
  dsimp only
  rw [hpercent, hstart, hend, hflow, Bool.false_or, hblank '-' (by simp), hblank '?' (by simp),
    hblank ':' (by simp)]
  rw [hflow] at hmay
  simp only [hlead, hmay, hoffer, hplain, beq_iff_eq, Bool.or_eq_true, Bool.and_eq_true,
    Bool.false_eq_true, or_false, false_and, if_false, if_true, Option.bind_eq_bind,
    Option.bind_some]
  rfl

theorem token?_colon (hp : p.char = ':') (hblank : atBlank source = true) :
    s.token? p source = (s.value? p).map (·, source) := by
  rw [token?]
  dsimp only
  rw [atMarker_eq_false (.inr (by rw [hp]; decide)), atMarker_eq_false (.inr (by rw [hp]; decide)),
    hp, hblank]
  cases s.value? p <;> simp

variable (hallowed : s.keyAllowed = false)
include hallowed

theorem offer?_of_not_allowed : s.offer? p = some s := by
  rw [offer?, hallowed]
  rfl

theorem token?_single (hp : p.char = '\'')
    (hread : singleQuoted [] source = some (text, source')) :
    s.token? p source = some ((s.allowKey false).emit (.scalar .quoted text), source') := by
  rw [token?]
  dsimp only
  rw [atMarker_eq_false (.inr (by rw [hp]; decide)), atMarker_eq_false (.inr (by rw [hp]; decide)),
    hp, offer?_of_not_allowed hallowed, hread]
  simp

theorem token?_double (hp : p.char = '"')
    (hread : doubleQuoted [] false 0 [] source = some (text, source')) :
    s.token? p source = some ((s.allowKey false).emit (.scalar .quoted text), source') := by
  rw [token?]
  dsimp only
  rw [atMarker_eq_false (.inr (by rw [hp]; decide)), atMarker_eq_false (.inr (by rw [hp]; decide)),
    hp, offer?_of_not_allowed hallowed, hread]
  simp

omit hallowed

theorem token?_literal (hflow : s.inFlow = false) (hnone : s.candidate = none) (hp : p.char = '|')
    (hread : block true s.margin source = some (text, source')) :
    s.token? p source = some ((s.allowKey true).emit (.scalar .literal text), source') := by
  have hdrop : s.dropCandidate? = some s := by
    obtain ⟨tokens, columns, candidate, outer, allowed⟩ := s
    obtain rfl : candidate = none := hnone
    rfl
  rw [token?]
  dsimp only
  rw [atMarker_eq_false (.inr (by rw [hp]; decide)), atMarker_eq_false (.inr (by rw [hp]; decide)),
    hp, hflow, hdrop]
  simp [hread]

end Token

/-! ## Keys -/

/-- A word that can be a key, and not so long that it is forgotten before its colon. -/
structure IsKey (key : List Char) : Prop where
  some_char : key ≠ []
  word : ∀ c ∈ key, isWordChar c = true
  short : key.length ≤ 256

instance : DecidablePred IsKey := fun key =>
  decidable_of_iff (key ≠ [] ∧ key.all isWordChar = true ∧ key.length ≤ 256)
    ⟨fun ⟨hsome, hword, hshort⟩ => ⟨hsome, List.all_eq_true.mp hword, hshort⟩,
      fun h => ⟨h.some_char, List.all_eq_true.mpr h.word, h.short⟩⟩

theorem plain_word {key : List Char} {d : Char} (hkey : ∀ c ∈ key, isWordChar c = true)
    (hd : isSeparation d = true) :
    ∃ offset', offset' ≤ offset + 4 * key.length ∧
      plain false margin [] (locate line column offset (key ++ ':' :: d :: rest)) =
        some (key, false, locate line (column + key.length) offset' (':' :: d :: rest)) := by
  induction key generalizing column offset with
  | nil =>
    refine ⟨offset, Nat.le_refl _, ?_⟩
    have hends :
        endsPlain false margin [] (locate line column offset (':' :: d :: rest)) = true := by
      rw [locate_cons rfl, endsPlain, atBlank_locate, hd]
      simp
    rw [List.nil_append]
    rw [locate_cons rfl] at hends ⊢
    exact plain_end rfl hends
  | cons c key ih =>
    have hc := hkey c List.mem_cons_self
    have hsize := Char.utf8Size_le_four c
    obtain ⟨offset', hle, hread⟩ := @ih (column + 1) (offset + c.utf8Size)
      fun d hd => hkey d (List.mem_cons_of_mem _ hd)
    refine ⟨offset', by rw [List.length_cons]; omega, ?_⟩
    have hends : endsPlain false margin []
        (locate line column offset (c :: (key ++ ':' :: d :: rest))) = false := by
      rw [locate_cons (isBreak_of_isWordChar hc), endsPlain]
      simp [ne_of_isWordChar hc (show isWordChar ':' = false by decide)]
    rw [List.cons_append]
    rw [locate_cons (isBreak_of_isWordChar hc)] at hends ⊢
    rw [plain_char (isSeparation_of_isWordChar hc) hends, hread, List.length_cons,
      Nat.add_right_comm column 1, ← Nat.add_assoc]
    rfl

theorem insertIdx_length (before after : List Token) (token : Token) :
    (before ++ after).insertIdx before.length token = before ++ token :: after := by
  induction before with
  | nil => rfl
  | cons t before ih => rw [List.cons_append, List.length_cons, List.insertIdx_succ_cons, ih]; rfl

theorem close_eq {candidate : Option KeyCandidate} : close ⟨tokens, columns, candidate, [], allowed⟩
    (some column) = ⟨tokens ++ (columns.takeWhile (column < ·)).map fun _ => .blockEnd,
      columns.dropWhile (column < ·), candidate, [], allowed⟩ := rfl

/-- Collections up to a column stay open on the same line. -/
theorem close_right {candidate : Option KeyCandidate} {column' : Nat}
    (hcolumns : ∀ first ∈ columns.head?, first ≤ column) (hle : column ≤ column') :
    close ⟨tokens, columns, candidate, [], allowed⟩ (some column') =
      ⟨tokens, columns, candidate, [], allowed⟩ := by
  rw [close_eq]
  cases columns with
  | nil => rw [List.takeWhile_nil, List.map_nil, List.append_nil, List.dropWhile_nil]
  | cons first columns =>
    have hfirst := hcolumns first rfl
    rw [List.takeWhile_cons_of_neg (by simp; omega), List.dropWhile_cons_of_neg (by simp; omega),
      List.map_nil, List.append_nil]

theorem head?_dropWhile_le (column : Nat) (columns : List Nat) :
    ∀ first ∈ (columns.dropWhile (column < ·)).head?, first ≤ column := by
  intro first hfirst
  have hnot := List.head?_dropWhile_not (column < ·) columns
  rw [Option.mem_def.mp hfirst] at hnot
  simpa using hnot

/-- The state behind a key and its colon. -/
def keyed (s : Scanner) (column : Nat) (key : List Char) : Scanner :=
  let s := s.close (some column)
  ((((s.openBlock column s.tokens.length .mappingStart).emit .key).emit
    (.scalar .plain key)).emit .value).allowKey false

/-- The tokens in front of a key are put there when its colon is read. -/
theorem value?_key {k : KeyCandidate} {p : Place} {key : List Char}
    (hindex : k.index = tokens.length) :
    value? ⟨tokens ++ [.scalar .plain key], columns, some k, [], false⟩ p =
      some (((((openBlock ⟨tokens, columns, none, [], true⟩ k.column tokens.length
        .mappingStart).emit .key).emit (.scalar .plain key)).emit .value).allowKey false) := by
  have hkey := insertIdx_length tokens [.scalar .plain key] .key
  have hstart := insertIdx_length tokens [.key, .scalar .plain key] .mappingStart
  have hlast := insertIdx_length tokens [] .mappingStart
  rw [List.append_nil] at hlast
  have hmargin : margin ⟨tokens, columns, none, [], true⟩ =
      margin ⟨tokens ++ [.key, .scalar .plain key], columns, some k, [], false⟩ := rfl
  simp only [value?, insert, hindex, hkey, openBlock, hmargin]
  by_cases hopen :
    k.column < margin ⟨tokens ++ [.key, .scalar .plain key], columns, some k, [], false⟩
  · simp [hopen, emit, allowKey]
  · simp [hopen, inFlow, emit, allowKey, hstart, hlast]

theorem expire?_none {p : Place} : expire? ⟨tokens, columns, none, [], allowed⟩ p =
    some ⟨tokens, columns, none, [], allowed⟩ := rfl

/-- A candidate is remembered on its line for a while. -/
theorem expire?_near {k : KeyCandidate} {p : Place} (hline : p.line = k.line)
    (hoffset : p.offset ≤ k.offset + 1024) :
    expire? ⟨tokens, columns, some k, [], allowed⟩ p =
      some ⟨tokens, columns, some k, [], allowed⟩ := by
  have hpast : (decide (k.line < p.line) || decide (k.offset + 1024 < p.offset)) = false := by
    simp only [Bool.or_eq_false_iff, decide_eq_false_iff_not]
    omega
  simp only [expire?, List.any_cons, List.any_nil, Option.any_some, hpast, Bool.false_and,
    Bool.or_false, Bool.false_eq_true, if_false, Option.filter_some, Bool.not_false, if_true,
    List.map_nil]

/-- A key, up to its colon. -/
theorem leads_key {n : Nat} {key : List Char} {d : Char} (hkey : IsKey key)
    (hd : isSeparation d = true) :
    ∃ column' offset', n < column' ∧ Leads 2 ⟨tokens, columns, none, [], true⟩
      (locate line 0 0 (List.replicate n ' ' ++ (key ++ ':' :: d :: rest)))
      (keyed ⟨tokens, columns, none, [], true⟩ n key)
      (locate line column' offset' (d :: rest)) := by
  obtain ⟨c, cs, rfl⟩ := List.exists_cons_of_ne_nil hkey.some_char
  have hc := hkey.word c List.mem_cons_self
  have hbreak := isBreak_of_isWordChar hc
  have hne (d : Char) (hd : isWordChar d = false) : c ≠ d := ne_of_isWordChar hc hd
  have hshort := hkey.short
  have hclose := @close_eq n tokens columns true none
  have hfirst := head?_dropWhile_le n columns
  rw [keyed, hclose]
  generalize tokens ++ (columns.takeWhile (n < ·)).map (fun _ => .blockEnd) = tokens₁ at hclose ⊢
  generalize columns.dropWhile (n < ·) = columns₁ at hclose hfirst ⊢
  let k : KeyCandidate := ⟨columns₁.head? == some n, tokens₁.length, line, n, n⟩
  obtain ⟨offset', hoffset, hplain⟩ := @plain_word line n n
    (margin ⟨tokens₁, columns₁, some k, [], true⟩) rest (c :: cs) d hkey.word hd
  have hskip : skipSpace ⟨tokens, columns, none, [], true⟩ false
      (locate line 0 0 (List.replicate n ' ' ++ (c :: cs ++ ':' :: d :: rest))) =
        (⟨tokens, columns, none, [], true⟩, locate line n n (c :: cs ++ ':' :: d :: rest)) := by
    rw [List.cons_append, skipSpace_indent (isSeparation_of_isWordChar hc) (hne '#' (by decide))
      (hne '\ufeff' (by decide)), Nat.zero_add]
  have hfirstToken : Leads 1 ⟨tokens, columns, none, [], true⟩
      (locate line 0 0 (List.replicate n ' ' ++ (c :: cs ++ ':' :: d :: rest)))
      ⟨tokens₁ ++ [.scalar .plain (c :: cs)], columns₁, some k, [], false⟩
      (locate line (n + (c :: cs).length) offset' (':' :: d :: rest)) := by
    rw [List.cons_append, locate_cons hbreak] at hskip hplain
    refine leads_token hskip expire?_none ?_
    have hmark : c ≠ '%' ∧ c ≠ '-' ∧ c ≠ '.' :=
      ⟨hne '%' (by decide), hne '-' (by decide), hne '.' (by decide)⟩
    have hlead : c ∉ leadingIndicators := by
      intro hmem
      have hnone : leadingIndicators.all (!isWordChar ·) = true := by decide
      simpa [hc] using List.all_eq_true.mp hnone c hmem
    have hgap : isGap c = false := by
      simp [isGap, hne ' ' (by decide), hne '\t' (by decide)]
    rw [hclose]
    exact token?_plain rfl (.inr hmark) hlead hgap
      (fun _ => ⟨hmark.2.1, hne '?' (by decide), hne ':' (by decide)⟩) rfl hplain
  have hcolon : Leads 1 ⟨tokens₁ ++ [.scalar .plain (c :: cs)], columns₁, some k, [], false⟩
      (locate line (n + (c :: cs).length) offset' (':' :: d :: rest))
      (((((openBlock ⟨tokens₁, columns₁, none, [], true⟩ n tokens₁.length .mappingStart).emit
        .key).emit (.scalar .plain (c :: cs))).emit .value).allowKey false)
      (locate line (n + (c :: cs).length + 1) (offset' + ':'.utf8Size) (d :: rest)) := by
    have hskip : skipSpace ⟨tokens₁ ++ [.scalar .plain (c :: cs)], columns₁, some k, [], false⟩
        false (locate line (n + (c :: cs).length) offset' (':' :: d :: rest)) =
          (⟨tokens₁ ++ [.scalar .plain (c :: cs)], columns₁, some k, [], false⟩,
            locate line (n + (c :: cs).length) offset' (':' :: d :: rest)) :=
      skipSpace_stop (by decide) (by decide) (.inr (by decide))
    rw [locate_cons rfl] at hskip ⊢
    refine leads_token hskip (expire?_near rfl (show offset' ≤ n + 1024 by omega)) ?_
    have hblank : atBlank (locate line (n + (c :: cs).length + 1) (offset' + ':'.utf8Size)
      (d :: rest)) = true := hd
    rw [close_right hfirst (Nat.le_add_right n _), token?_colon (by rfl) hblank, value?_key rfl]
    rfl
  exact ⟨_, _, Nat.lt_succ_of_le (Nat.le_add_right n _), hfirstToken.trans hcolon⟩

end Scanner

/-! ## Values -/

/-- The ways to write a text as a value, in a style and with the end of its line. What follows the
first line stands at the margin at least. -/
inductive Denotes (margin : Nat) : List Char → Style → List Char → Prop
  | plain {text : List Char} (hsome : text ≠ []) (h : canBePlain text = true) :
    Denotes margin (text ++ ['\n']) .plain text
  | single {text : List Char} (hline : '\n' ∉ text) (h : needsEscapes text = false) :
    Denotes margin (Written.singleQuoted (margin + 1) text ++ ['\n']) .quoted text
  | double {text : List Char} : Denotes margin (Written.doubleQuoted text ++ ['\n']) .quoted text
  | literal {text : List Char} (hsome : text ≠ []) (h : canBeBlock text = true) :
    Denotes margin (literalBlock (margin + 1) text) .literal text

/-- The style that a text is written in as a value. -/
def styleOf (text : List Char) : Style :=
  if text.contains '\n' then if canBeBlock text then .literal else .quoted
  else if !Plain.isAmbiguous text && canBePlain text then .plain
  else .quoted

theorem denotes_value (margin : Nat) (text : List Char) :
    Denotes margin (value (margin + 1) text) (styleOf text) text := by
  rw [value, styleOf]
  split
  · next hline =>
    split
    · next hblock =>
      have hsome : text ≠ [] := by
        rintro rfl
        exact absurd hline (by decide)
      exact .literal hsome hblock
    · exact .double
  · next hline =>
    split
    · next hplain =>
      rw [Bool.and_eq_true, Bool.not_eq_true'] at hplain
      have hsome : text ≠ [] := by
        rintro rfl
        exact absurd hplain.1 (by decide)
      exact .plain hsome hplain.2
    · split
      · exact .double
      · next hescapes =>
        exact .single (by simpa using hline) (Bool.eq_false_iff.mpr hescapes)

/-- How a plain text begins. -/
theorem plain_start {c : Char} {cs rest : List Char} {line column offset : Nat}
    (h : canBePlain (c :: cs) = true) : isSeparation c = false ∧ c ∉ leadingIndicators ∧
      (atBlank (locate line column offset (cs ++ '\n' :: rest)) = true →
        c ≠ '-' ∧ c ≠ '?' ∧ c ≠ ':') := by
  have hrest := plainRest_of_canBePlain h
  simp only [canBePlain, isIndicated, Bool.and_eq_true, Bool.not_eq_true', Bool.or_eq_false_iff,
    List.take_succ_cons, List.take_zero, List.any_append, List.any_cons, List.any_nil,
    Bool.or_false, beq_eq_false_iff_ne] at h
  obtain ⟨⟨⟨⟨hspace, -⟩, -⟩, -⟩, ⟨⟨⟨-, hlead⟩, -⟩, -⟩, hdash⟩ := h
  have hnext : atBlank (locate line column offset (cs ++ '\n' :: rest)) = true →
      (cs ++ [' ']).head?.any isSeparation = true := by
    cases cs with
    | nil => exact fun _ => rfl
    | cons d cs => exact fun hd => hd
  refine ⟨hrest.not_separation hspace, by simpa using hlead, fun hblank => ?_⟩
  rw [hnext hblank, Bool.and_true, Bool.or_eq_false_iff, beq_eq_false_iff_ne,
    beq_eq_false_iff_ne] at hdash
  refine ⟨hdash.1, hdash.2, ?_⟩
  rintro rfl
  have hcolon := hrest.colon
  cases cs with
  | nil => exact absurd hcolon (by decide)
  | cons d cs =>
    have hd := second_of_hasPair hcolon rfl
    rw [show isSeparation d = true from hblank] at hd
    exact absurd hd (by decide)

namespace Scanner

variable {line column offset m : Nat} {tokens : List Token} {columns : List Nat}
variable {rest written text : List Char} {style : Style}

theorem leads_first {c : Char} {cs : List Char} {s' : Scanner} {source' : Source}
    (hsep : isSeparation c = false) (hcomment : c ≠ '#') (hcolumn : m < column)
    (htoken : token? ⟨tokens, m :: columns, none, [], false⟩ ⟨c, line, column + 1, offset + 1⟩
      (locate line (column + 1 + 1) (offset + 1 + c.utf8Size) cs) = some (s', source')) :
    Leads 1 ⟨tokens, m :: columns, none, [], false⟩ (locate line column offset (' ' :: c :: cs))
      s' source' := by
  have hskip : skipSpace ⟨tokens, m :: columns, none, [], false⟩ false
      (locate line column offset (' ' :: c :: cs)) = (⟨tokens, m :: columns, none, [], false⟩,
        locate line (column + 1) (offset + 1) (c :: cs)) := by
    rw [skipSpace_space, show ' '.utf8Size = 1 from rfl]
    exact skipSpace_stop hsep hcomment (.inl (Nat.succ_pos column))
  rw [locate_cons (isSeparation_eq_false_iff.mp hsep).2.2] at hskip
  refine leads_token hskip expire?_none ?_
  have hopen : ∀ first ∈ (m :: columns).head?, first ≤ column := by
    simpa using Nat.le_of_lt hcolumn
  rw [close_right hopen (Nat.le_succ column)]
  exact htoken

/-- A quoted scalar leaves the end of its line behind. -/
theorem leads_lineEnd {s : Scanner} {source : Source} {line' column' offset' : Nat}
    (h : Leads 1 s source ⟨tokens, columns, none, [], false⟩
      (locate line' column' offset' ('\n' :: rest))) :
    Leads 1 s source ⟨tokens, columns, none, [], true⟩ (locate (line' + 1) 0 0 rest) :=
  h.trans (leads_space (skipSpace_break rfl))

/-- An unquoted scalar goes over the indentation of the next line. -/
theorem leads_indent {s : Scanner} {source : Source} {line' : Nat}
    (h : Leads 1 s source ⟨tokens, columns, none, [], true⟩ (afterIndent (locate line' 0 0 rest))) :
    Leads 1 s source ⟨tokens, columns, none, [], true⟩ (locate line' 0 0 rest) :=
  h.trans (leads_space skipSpace_afterIndent)

/-- A value in any of the ways to write it, up to the next line. -/
theorem leads_value (h : Denotes (m + 1) written style text) (hcolumn : m < column)
    (hrest : Outdented (m + 1) rest) :
    ∃ line', Leads 1 ⟨tokens, m :: columns, none, [], false⟩
      (locate line column offset (' ' :: (written ++ rest)))
      ⟨tokens ++ [.scalar style text], m :: columns, none, [], true⟩ (locate line' 0 0 rest) := by
  cases h with
  | plain hsome htext =>
    obtain ⟨c, cs, rfl⟩ := List.exists_cons_of_ne_nil hsome
    obtain ⟨hsep, hlead, hnext⟩ := @plain_start c cs rest line (column + 1 + 1)
      (offset + 1 + c.utf8Size) htext
    obtain ⟨hspace, htab, hbreak⟩ := isSeparation_eq_false_iff.mp hsep
    have hgap : isGap c = false := by simp [isGap, hspace, htab]
    have hcomment : c ≠ '#' := fun hc => hlead (by rw [hc]; decide)
    have hplain := @plain_text line (column + 1) (offset + 1) (m + 1) (c :: cs) rest htext
      (Nat.succ_pos m) (by omega) hrest
    rw [List.cons_append, locate_cons hbreak] at hplain
    refine ⟨line + 1, leads_indent ?_⟩
    rw [List.append_assoc, List.singleton_append, List.cons_append]
    refine leads_first hsep hcomment hcolumn ?_
    exact token?_plain rfl (.inl (Nat.succ_pos column)) hlead hgap hnext
      (offer?_of_not_allowed rfl) hplain
  | single hline htext =>
    obtain ⟨line', column', offset', hread⟩ := @singleQuoted_text line (column + 1 + 1)
      (offset + 1 + '\''.utf8Size) (m + 1 + 1) text rest htext hline (Nat.succ_pos _)
      (Nat.succ_pos _)
    refine ⟨line' + 1, @leads_lineEnd _ _ _ _ _ line' column' offset' ?_⟩
    rw [Written.singleQuoted, List.append_assoc, List.append_assoc]
    refine leads_first rfl (by decide) hcolumn ?_
    exact token?_single rfl rfl hread
  | double =>
    obtain ⟨column', offset', hread⟩ := @doubleQuoted_rest line (column + 1 + 1)
      (offset + 1 + '"'.utf8Size) [] text ('\n' :: rest) (List.forall_mem_nil _) (Nat.succ_pos _)
    refine ⟨line + 1, @leads_lineEnd _ _ _ _ _ line column' offset' ?_⟩
    rw [doubleQuoted_eq, List.append_assoc, List.append_assoc]
    refine leads_first rfl (by decide) hcolumn ?_
    exact token?_double rfl rfl hread
  | literal hsome htext =>
    have htab : '\t' ∉ text := by
      intro hmem
      simp only [canBeBlock, Bool.and_eq_true, Bool.not_eq_true'] at htext
      exact List.any_eq_false.mp htext.1.2 '\t' hmem (by decide)
    obtain ⟨more, line', hmore, hread⟩ := @block_text line (column + 1 + 1)
      (offset + 1 + '|'.utf8Size) (m + 1) text rest hsome htab (Nat.succ_pos m) hrest
    refine ⟨line', leads_indent ?_⟩
    rw [hmore]
    refine leads_first rfl (by decide) hcolumn ?_
    exact token?_literal rfl rfl rfl hread

end Scanner

end TraceWeave.Yaml
