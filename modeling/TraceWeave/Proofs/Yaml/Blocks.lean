import TraceWeave.Proofs.Yaml.Places
import TraceWeave.Yaml.Scalar

/-!
# Written blocks are read back

A text is cut into lines with line breaks between them, and further line breaks at either end.
The block reader hands the line breaks at the front on to the first line and those behind a line
to the next; what becomes of the ones at the end is up to the mark in the header.

* `exists_lines`: every text can be cut so;
* `blockLines_body`: the lines of a block;
* `block_text`: a literal block.
-/

namespace TraceWeave.Yaml

open TraceWeave.Text Written

variable {line column offset margin indent : Nat} {c : Char} {cs rest : List Char}

/-- Nothing but line breaks. -/
def Breaks (cs : List Char) : Prop :=
  ∀ c ∈ cs, isBreak c = true

/-- Characters that stand on one line. -/
def Inline (cs : List Char) : Prop :=
  ∀ c ∈ cs, isBreak c = false

theorem Inline.of_cons (h : Inline (c :: cs)) : isBreak c = false ∧ Inline cs :=
  List.forall_mem_cons.mp h

theorem Breaks.of_cons (h : Breaks (c :: cs)) : isBreak c = true ∧ Breaks cs :=
  List.forall_mem_cons.mp h

/-- A text that neither begins nor ends with a line break, line by line. -/
inductive Lines : List Char → Prop
  | last {c : Char} {cs : List Char} (hline : Inline (c :: cs)) : Lines (c :: cs)
  | step {c b : Char} {cs breaks core : List Char} (hline : Inline (c :: cs))
    (hb : isBreak b = true) (hbreaks : Breaks breaks) (hcore : Lines core) :
    Lines (c :: cs ++ b :: (breaks ++ core))

theorem Lines.cons (hc : isBreak c = false) {core : List Char} (h : Lines core) :
    Lines (c :: core) := by
  cases h with
  | last hline => exact .last (List.forall_mem_cons.mpr ⟨hc, hline⟩)
  | step hline hb hbreaks hcore =>
    exact .step (List.forall_mem_cons.mpr ⟨hc, hline⟩) hb hbreaks hcore

theorem Lines.eq_cons {core : List Char} (h : Lines core) :
    ∃ c cs, core = c :: cs ∧ isBreak c = false := by
  cases h with
  | last hline => exact ⟨_, _, rfl, hline.of_cons.1⟩
  | step hline => exact ⟨_, _, rfl, hline.of_cons.1⟩

/-- A text is a text of lines between line breaks, or has no lines at all. -/
theorem exists_lines (cs : List Char) : Breaks cs ∨
    ∃ before core after, cs = before ++ core ++ after ∧ Breaks before ∧ Lines core ∧
      Breaks after := by
  induction cs with
  | nil => exact .inl (List.forall_mem_nil _)
  | cons c cs ih =>
    cases hc : isBreak c with
    | true =>
      rcases ih with hbreaks | ⟨before, core, after, rfl, hbefore, hcore, hafter⟩
      · exact .inl (List.forall_mem_cons.mpr ⟨hc, hbreaks⟩)
      · exact .inr ⟨c :: before, core, after, rfl, List.forall_mem_cons.mpr ⟨hc, hbefore⟩, hcore,
          hafter⟩
    | false =>
      have hline : Inline [c] := by simpa [Inline] using hc
      right
      rcases ih with hbreaks | ⟨before, core, after, rfl, hbefore, hcore, hafter⟩
      · exact ⟨[], [c], cs, rfl, List.forall_mem_nil _, .last hline, hbreaks⟩
      · cases before with
        | nil =>
          exact ⟨[], c :: core, after, rfl, List.forall_mem_nil _, hcore.cons hc, hafter⟩
        | cons b before =>
          obtain ⟨hb, hbefore⟩ := hbefore.of_cons
          exact ⟨[], [c] ++ b :: (before ++ core), after, by simp, List.forall_mem_nil _,
            .step hline hb hbefore hcore, hafter⟩

/-! ## Writing -/

theorem blockBody_inline (h : Inline cs) (rest : List Char) :
    blockBody indent false (cs ++ rest) = cs ++ blockBody indent false rest := by
  induction cs with
  | nil => rfl
  | cons c cs ih =>
    obtain ⟨hc, hcs⟩ := h.of_cons
    rw [List.cons_append, blockBody, if_neg (by simp [hc]), ih hcs]
    rfl

theorem blockBody_breaks (h : Breaks cs) (rest : List Char) :
    blockBody indent true (cs ++ rest) = cs ++ blockBody indent true rest := by
  induction cs with
  | nil => rfl
  | cons c cs ih =>
    obtain ⟨hc, hcs⟩ := h.of_cons
    rw [List.cons_append, blockBody, if_pos hc, ih hcs]
    rfl

theorem blockBody_break (hc : isBreak c = true) (begun : Bool) (rest : List Char) :
    blockBody indent begun (c :: rest) = c :: blockBody indent true rest := by
  rw [blockBody, if_pos hc]

theorem blockBody_line (hc : isBreak c = false) (rest : List Char) :
    blockBody indent true (c :: rest) =
      List.replicate indent ' ' ++ blockBody indent false (c :: rest) := by
  rw [blockBody, blockBody, if_neg (by simp [hc]), if_neg (by simp [hc])]
  rfl

/-- What is written behind the last line. -/
theorem blockBody_end (h : Breaks cs) : ∃ b, isBreak b = true ∧ (cs ++ ['\n']).take 1 = [b] ∧
    blockBody indent false cs = b :: cs.tail := by
  cases cs with
  | nil => exact ⟨'\n', rfl, rfl, rfl⟩
  | cons c cs =>
    obtain ⟨hc, hcs⟩ := h.of_cons
    have htail := @blockBody_breaks indent cs hcs []
    rw [List.append_nil, blockBody, if_pos rfl, List.append_nil] at htail
    refine ⟨c, hc, rfl, ?_⟩
    rw [blockBody_break hc, htail]
    rfl

/-! ## Reading -/

theorem splitWhile_line (h : Inline cs) (hc : isBreak c = true) :
    ∃ column' offset', splitWhile (fun c => !isBreak c)
      (locate line column offset (cs ++ c :: rest)) =
        (cs, locate line column' offset' (c :: rest)) := by
  induction cs generalizing column offset with
  | nil =>
    refine ⟨column, offset, ?_⟩
    rw [List.nil_append, locate_break hc, splitWhile, List.takeWhile_cons_of_neg (by simp [hc]),
      List.dropWhile_cons_of_neg (by simp [hc])]
    rfl
  | cons d cs ih =>
    obtain ⟨hd, hcs⟩ := h.of_cons
    obtain ⟨column', offset', hread⟩ := @ih (column + 1) (offset + d.utf8Size) hcs
    refine ⟨column', offset', ?_⟩
    rw [splitWhile, Prod.mk.injEq] at hread
    rw [List.cons_append, locate_cons hd, splitWhile, List.takeWhile_cons_of_pos (by simp [hd]),
      List.dropWhile_cons_of_pos (by simp [hd]), List.map_cons, hread.1, hread.2]

theorem emptyLines_breaks (h : Breaks cs) (width : Option Nat) :
    ∃ line', ∀ rest lineBreaks column source,
      emptyLines width (locate line' 0 0 rest) = some (lineBreaks, column, source) →
        ∃ column', (cs = [] → column' = column) ∧
          emptyLines width (locate line 0 0 (cs ++ rest)) =
            some (cs ++ lineBreaks, column', source) := by
  induction cs generalizing line with
  | nil => exact ⟨line, fun rest lineBreaks column source hread => ⟨column, fun _ => rfl, hread⟩⟩
  | cons c cs ih =>
    obtain ⟨hc, hcs⟩ := h.of_cons
    obtain ⟨line', hnext⟩ := @ih (line + 1) hcs
    refine ⟨line', fun rest lineBreaks column source hread => ?_⟩
    obtain ⟨column', -, hread⟩ := hnext rest lineBreaks column source hread
    refine ⟨max 0 column', fun h => absurd h (List.cons_ne_nil _ _), ?_⟩
    have hgap : c ≠ ' ' ∧ c ≠ '\t' := by
      constructor <;> rintro rfl <;> exact absurd hc (by decide)
    rw [List.cons_append, locate_break hc, emptyLines, if_neg (by simp [hgap.1]),
      if_neg (by simp [hgap.2]), if_pos hc, hread]
    rfl

/-- Spaces are passed over up to the indentation. -/
theorem emptyLines_spaces {width : Option Nat} {n : Nat}
    (hn : ∀ i < n, width.all (column + i < ·) = true) :
    emptyLines width (locate line column offset (List.replicate n ' ' ++ cs)) =
      emptyLines width (locate line (column + n) (offset + n) cs) := by
  induction n generalizing column offset with
  | zero => rfl
  | succ n ih =>
    have hfirst := hn 0 (Nat.succ_pos n)
    have hnext : ∀ i < n, width.all (column + 1 + i < ·) = true := by
      intro i hi
      have hi' := hn (i + 1) (Nat.succ_lt_succ hi)
      rwa [Nat.add_comm i 1, ← Nat.add_assoc] at hi'
    rw [List.replicate_succ, List.cons_append, locate_cons rfl, emptyLines,
      if_pos (by simpa using hfirst), ih hnext, show ' '.utf8Size = 1 from rfl,
      Nat.add_right_comm column 1 n, Nat.add_right_comm offset 1 n]
    rfl

theorem emptyLines_stop {width : Option Nat} (hc : isBreak c = false)
    (hstop : width = some column ∨ isGap c = false) :
    emptyLines width (locate line column offset (c :: cs)) =
      some ([], column, locate line column offset (c :: cs)) := by
  have hinside (d : Char) (hd : isGap d = true) :
      ¬(width.all (column < ·) && c == d) = true := by
    rcases hstop with rfl | hgap
    · simp
    · rintro h
      have hcd : c = d := by simpa using (Bool.and_eq_true_iff.mp h).2
      rw [hcd, hd] at hgap
      exact absurd hgap (by decide)
  rw [locate_cons hc, emptyLines]
  dsimp only
  rw [if_neg (hinside ' ' rfl), if_neg (hinside '\t' rfl), if_neg (by simp [hc])]

theorem emptyLines_outdented (hrest : Outdented indent rest) :
    ∃ column', emptyLines (some indent) (locate line 0 0 rest) =
      some ([], column', afterIndent (locate line 0 0 rest)) := by
  cases hrest with
  | nil => exact ⟨0, rfl⟩
  | @line n c cs hn hc =>
    have hsep := isSeparation_eq_false_iff.mp (isSeparation_of_isWordChar hc)
    have hgap : isGap c = false := by simp [isGap, hsep.1, hsep.2.1]
    refine ⟨0 + n, ?_⟩
    rw [emptyLines_spaces (by simpa using fun i hi => Nat.lt_trans hi hn),
      emptyLines_stop hsep.2.2 (.inr hgap), afterIndent_spaces n hsep.1]

/-- A line is read from its indentation on, which shows only in the line if no width is given. -/
theorem emptyLines_line {width : Option Nat} (hc : isBreak c = false)
    (hwidth : width = some indent ∨ width = none ∧ isGap c = false) :
    emptyLines width (locate line 0 0 (blockBody indent true (c :: cs) ++ rest)) =
      some ([], indent, locate line indent indent (blockBody indent false (c :: cs) ++ rest)) := by
  have hinside : ∀ i < indent, width.all (0 + i < ·) = true := by
    rcases hwidth with rfl | ⟨rfl, -⟩
    · simp
    · simp
  have hfirst : blockBody indent false (c :: cs) = c :: blockBody indent false cs := by
    rw [blockBody, if_neg (by simp [hc])]
    rfl
  rw [blockBody_line hc, List.append_assoc, emptyLines_spaces hinside, hfirst, List.cons_append,
    Nat.zero_add]
  exact emptyLines_stop hc (hwidth.imp id And.right)

variable {fuel : Nat} {wasBlank : Bool} {lineBreak emptied core breaks : List Char}

theorem blockLines_stop (hrest : Outdented indent rest) :
    blockLines true indent fuel lineBreak wasBlank emptied (afterIndent (locate line 0 0 rest)) =
      some ([], lineBreak, emptied, afterIndent (locate line 0 0 rest)) := by
  cases hrest with
  | nil => cases fuel <;> rfl
  | @line n c cs hn hc =>
    rw [afterIndent_spaces n (ne_of_isWordChar hc (by decide)),
      locate_cons (isBreak_of_isWordChar hc)]
    cases fuel with
    | zero => rfl
    | succ fuel =>
      rw [blockLines]
      exact if_pos (by simp; omega)

/-- One line of a literal block, with the line break and the empty lines in front of it. -/
theorem blockLines_line {b : Char} {nextEmptied text last trailing : List Char} {column' : Nat}
    {next source : Source} (hline : Inline (c :: cs)) (hb : isBreak b = true)
    (hempty : emptyLines (some indent) (locate (line + 1) 0 0 rest) =
      some (nextEmptied, column', next))
    (hnext : ∀ wasBlank, blockLines true indent fuel [b] wasBlank nextEmptied next =
      some (text, last, trailing, source)) :
    blockLines true indent (fuel + 1) lineBreak wasBlank emptied
      (locate line indent offset (c :: cs ++ b :: rest)) =
        some (lineBreak ++ emptied ++ (c :: cs ++ text), last, trailing, source) := by
  obtain ⟨column'', offset'', hsplit⟩ :=
    @splitWhile_line line indent offset b (c :: cs) rest hline hb
  rw [List.cons_append, locate_cons hline.of_cons.1] at hsplit ⊢
  rw [blockLines, if_neg (by simp)]
  dsimp only
  rw [hsplit, locate_break hb]
  simp only [Bool.not_true, Bool.false_and, Bool.false_eq_true, if_false, List.tail_cons, hempty,
    Option.bind_eq_bind, Option.bind_some, List.take_succ_cons, List.take_zero, List.map_cons,
    List.map_nil, hnext, List.append_assoc]
  rfl

/-- The lines of a block. What stands behind the last one is handed on. -/
theorem blockLines_body (hcore : Lines core) (hbreaks : Breaks breaks)
    (hrest : Outdented indent rest)
    (hfuel : (blockBody indent false (core ++ breaks)).length ≤ fuel) :
    ∃ line', ∀ wasBlank lineBreak emptied, blockLines true indent fuel lineBreak wasBlank emptied
      (locate line indent offset (blockBody indent false (core ++ breaks) ++ rest)) =
        some (lineBreak ++ emptied ++ core, (breaks ++ ['\n']).take 1, breaks.tail,
          afterIndent (locate line' 0 0 rest)) := by
  induction hcore generalizing fuel line offset with
  | @last c cs hline =>
    obtain ⟨b, hb, htake, hend⟩ := @blockBody_end indent breaks hbreaks
    rw [blockBody_inline hline, hend] at hfuel ⊢
    obtain ⟨fuel, rfl⟩ : ∃ n, fuel = n + 1 := ⟨fuel - 1, by simp at hfuel; omega⟩
    have htail : Breaks breaks.tail := fun d hd => hbreaks d (List.mem_of_mem_tail hd)
    obtain ⟨line', hskip⟩ := @emptyLines_breaks (line + 1) breaks.tail htail (some indent)
    obtain ⟨column', hstop⟩ := @emptyLines_outdented line' indent rest hrest
    obtain ⟨column'', -, hempty⟩ := hskip rest [] column' _ hstop
    rw [List.append_nil] at hempty
    have htext : c :: cs ++ b :: breaks.tail ++ rest = c :: cs ++ b :: (breaks.tail ++ rest) :=
      List.append_assoc _ _ _
    refine ⟨line', fun wasBlank lineBreak emptied => ?_⟩
    rw [htext, blockLines_line hline hb hempty fun _ => blockLines_stop hrest, htake,
      List.append_nil]
  | @step c b cs breaks' core hline hb hbreaks' hcore ih =>
    obtain ⟨d, ds, rfl, hd⟩ := hcore.eq_cons
    have hbody : blockBody indent false ((c :: cs ++ b :: (breaks' ++ d :: ds)) ++ breaks) =
        (c :: cs) ++ b :: (breaks' ++ blockBody indent true (d :: ds ++ breaks)) := by
      have htext : (c :: cs ++ b :: (breaks' ++ d :: ds)) ++ breaks =
          (c :: cs) ++ b :: (breaks' ++ d :: (ds ++ breaks)) := by simp
      rw [htext, blockBody_inline hline, blockBody_break hb, blockBody_breaks hbreaks']
      rfl
    have htext : (c :: cs) ++ b :: (breaks' ++ blockBody indent true (d :: ds ++ breaks)) ++ rest =
        (c :: cs) ++ b :: (breaks' ++ (blockBody indent true (d :: ds ++ breaks) ++ rest)) := by
      simp
    have hshort : (blockBody indent false (d :: ds ++ breaks)).length ≤
        (blockBody indent true (d :: ds ++ breaks)).length := by
      rw [List.cons_append, blockBody_line hd, List.length_append]
      omega
    rw [hbody, List.length_append, List.length_cons, List.length_cons, List.length_append] at hfuel
    obtain ⟨fuel, rfl⟩ : ∃ n, fuel = n + 1 := ⟨fuel - 1, by omega⟩
    obtain ⟨line', hskip⟩ := @emptyLines_breaks (line + 1) breaks' hbreaks' (some indent)
    obtain ⟨line'', hread⟩ := @ih line' indent fuel (by omega)
    have hfirst : emptyLines (some indent)
        (locate line' 0 0 (blockBody indent true (d :: ds ++ breaks) ++ rest)) =
          some ([], indent, locate line' indent indent
            (blockBody indent false (d :: ds ++ breaks) ++ rest)) :=
      emptyLines_line hd (.inl rfl)
    obtain ⟨column', -, hempty⟩ := hskip _ _ _ _ hfirst
    rw [List.append_nil] at hempty
    refine ⟨line'', fun wasBlank lineBreak emptied => ?_⟩
    rw [hbody, htext, blockLines_line hline hb hempty fun wasBlank => hread wasBlank [b] breaks',
      List.append_assoc [b], List.singleton_append]

/-! ## Literal blocks -/

theorem Outdented.mono {margin' : Nat} (h : Outdented margin rest) (hle : margin ≤ margin') :
    Outdented margin' rest := by
  cases h with
  | nil => exact .nil
  | line hn hc => exact .line (Nat.lt_of_lt_of_le hn hle) hc

theorem endLine?_break : endLine? (locate line column offset ('\n' :: rest)) =
    some (locate (line + 1) 0 0 rest) := by
  rw [locate_break rfl]
  rfl

theorem Lines.eq_concat {core : List Char} (h : Lines core) :
    ∃ cs c, core = cs ++ [c] ∧ isBreak c = false := by
  induction h with
  | @last c cs hline =>
    rcases List.eq_nil_or_concat (c :: cs) with h | ⟨ds, d, h⟩
    · exact absurd h (List.cons_ne_nil _ _)
    · rw [List.concat_eq_append] at h
      exact ⟨ds, d, h, hline d (by simp [h])⟩
  | @step c b cs breaks core hline hb hbreaks hcore ih =>
    obtain ⟨ds, d, rfl, hd⟩ := ih
    exact ⟨c :: cs ++ b :: (breaks ++ ds), d, by simp, hd⟩

/-- The mark for what becomes of the line breaks at the end. -/
def Chomping.mark : Chomping → List Char
  | .strip => ['-']
  | .clip => []
  | .keep => ['+']

/-- What has to become of line breaks behind the last line for them to stay. -/
def Chomping.of : List Char → Chomping
  | [] => .strip
  | [_] => .clip
  | _ :: _ :: _ => .keep

theorem chompingMark_concat (hc : isBreak c = false) : chompingMark (cs ++ [c]) = ['-'] := by
  rw [chompingMark, List.reverse_append, List.reverse_singleton, List.singleton_append]
  cases cs.reverse <;> simp [hc]

theorem chompingMark_concat_break (hc : isBreak c = true) (d : Char) :
    chompingMark (cs ++ [d, c]) = if isBreak d then ['+'] else [] := by
  rw [chompingMark, List.reverse_append]
  simp [hc]

/-- Two or more characters have a last one and one before it. -/
theorem exists_last_two (c d : Char) (cs : List Char) : ∃ ds x y, c :: d :: cs = ds ++ [x, y] := by
  induction cs generalizing c d with
  | nil => exact ⟨[], c, d, rfl⟩
  | cons e cs ih =>
    obtain ⟨ds, x, y, h⟩ := ih d e
    exact ⟨c :: ds, x, y, by rw [h, List.cons_append]⟩

theorem chompingMark_two_breaks {d : Char} (h : Breaks (c :: d :: cs)) (before : List Char) :
    chompingMark (before ++ c :: d :: cs) = ['+'] := by
  obtain ⟨ds, x, y, hlast⟩ := exists_last_two c d cs
  rw [hlast] at h ⊢
  rw [← List.append_assoc, chompingMark_concat_break (h y (by simp)), if_pos (h x (by simp))]

theorem chompingMark_lines (hcore : Lines core) (hbreaks : Breaks breaks) (before : List Char) :
    chompingMark (before ++ core ++ breaks) = (Chomping.of breaks).mark := by
  obtain ⟨cs, c, rfl, hc⟩ := hcore.eq_concat
  match breaks with
  | [] =>
    rw [List.append_nil, ← List.append_assoc, chompingMark_concat hc]
    rfl
  | [b] =>
    have htext : before ++ (cs ++ [c]) ++ [b] = (before ++ cs) ++ [c, b] := by simp
    rw [htext, chompingMark_concat_break (hbreaks b (by simp)), hc]
    rfl
  | b :: b' :: bs => exact chompingMark_two_breaks hbreaks _

theorem chompingMark_breaks (h : Breaks (c :: cs)) :
    chompingMark (c :: cs) = Chomping.keep.mark := by
  cases cs with
  | nil => simp [chompingMark, h.of_cons.1, Chomping.mark]
  | cons d cs => exact chompingMark_two_breaks h []

theorem blockHeader_written (given : Bool) (chomping : Chomping) :
    ∃ column' offset', blockHeader (locate line column offset
      ((if given then ['2'] else []) ++ chomping.mark ++ '\n' :: cs)) =
        (chomping, if given then some 2 else none,
          locate line column' offset' ('\n' :: cs)) := by
  cases given <;> cases chomping <;> exact ⟨_, _, rfl⟩

/-- A block is read at the indentation that its header gives or that its first line has. -/
theorem block_of_lines {given : Bool} {chomping : Chomping} {text last trailing : List Char}
    {column' : Nat} {next source : Source} (hpos : 0 < margin)
    (hempty : emptyLines (if given then some (margin + 1) else none) (locate (line + 1) 0 0 cs) =
      some (emptied, column', next))
    (hwidth : given = false → column' = margin + 1)
    (hlines : blockLines true (margin + 1) next.length [] false emptied next =
      some (text, last, trailing, source)) :
    block true margin (locate line column offset
      ((if given then ['2'] else []) ++ chomping.mark ++ '\n' :: cs)) =
        some (text ++ (match chomping with
          | .strip => []
          | .clip => last
          | .keep => last ++ trailing), source) := by
  obtain ⟨column'', offset'', hheader⟩ :=
    @blockHeader_written line column offset cs given chomping
  have hmap : (if given then some 2 else none).map (margin - 1 + ·) =
      if given then some (margin + 1) else none := by
    cases given with
    | false => rfl
    | true => simp only [if_true, Option.map_some, Option.some.injEq]; omega
  have hindent : (if given then some (margin + 1) else none).getD (max column' (max margin 1)) =
      margin + 1 := by
    cases given with
    | false => simp only [Bool.false_eq_true, if_false, Option.getD_none, hwidth rfl]; omega
    | true => rfl
  rw [block, hheader]
  simp only [endLine?_break, hmap, hempty, hindent, hlines, Option.bind_eq_bind, Option.bind_some]
  rfl

/-- **Reading a literal block.** The text that was written comes back, whatever line breaks it
begins or ends with. -/
theorem block_text (hcs : cs ≠ []) (htab : '\t' ∉ cs) (hpos : 0 < margin)
    (hrest : Outdented margin rest) :
    ∃ more line', literalBlock (margin + 1) cs = '|' :: more ∧
      block true margin (locate line column offset (more ++ rest)) =
        some (cs, afterIndent (locate line' 0 0 rest)) := by
  have hoff := hrest.mono (Nat.le_succ margin)
  have hmore : literalBlock (margin + 1) cs = '|' ::
      ((if (cs.take 1).any (fun c => c == ' ' || isBreak c) then ['2'] else []) ++
        chompingMark cs ++ '\n' :: blockBody (margin + 1) true cs) := rfl
  have htext (front : List Char) : front ++ '\n' :: blockBody (margin + 1) true cs ++ rest =
      front ++ '\n' :: (blockBody (margin + 1) true cs ++ rest) := List.append_assoc _ _ _
  rcases exists_lines cs with hbreaks | ⟨before, core, after, rfl, hbefore, hcore, hafter⟩
  · obtain ⟨c, cs, rfl⟩ := List.exists_cons_of_ne_nil hcs
    obtain ⟨line', hskip⟩ := @emptyLines_breaks (line + 1) _ hbreaks (some (margin + 1))
    obtain ⟨column', hstop⟩ := @emptyLines_outdented line' (margin + 1) rest hoff
    obtain ⟨column'', -, hempty⟩ := hskip rest [] column' _ hstop
    have hgiven : ((c :: cs).take 1).any (fun c => c == ' ' || isBreak c) = true := by
      simp [hbreaks.of_cons.1]
    have hbody := @blockBody_breaks (margin + 1) _ hbreaks []
    rw [List.append_nil, blockBody, if_pos rfl, List.append_nil] at hbody
    have hread :=
      @block_of_lines line column offset margin (c :: cs ++ rest) _ true .keep _ _ _ _ _ _
      hpos hempty (fun h => absurd h (by decide)) (blockLines_stop hoff)
    refine ⟨_, line', hmore, ?_⟩
    rw [htext, hbody, chompingMark_breaks hbreaks, hgiven, hread]
    simp
  · obtain ⟨d, ds, rfl, hd⟩ := hcore.eq_cons
    generalize hgiven : ((before ++ d :: ds ++ after).take 1).any
      (fun c => c == ' ' || isBreak c) = given at hmore
    -- Without a width the text begins with a line, and that one with no blank.
    have hnone : given = false → before = [] ∧ isGap d = false := by
      rintro rfl
      cases before with
      | nil =>
        have hspace : d ≠ ' ' := by simpa [hd] using hgiven
        have htab : d ≠ '\t' := by
          rintro rfl
          exact htab (by simp)
        exact ⟨rfl, by simp [isGap, hspace, htab]⟩
      | cons b before => simp [hbefore.of_cons.1] at hgiven
    have hwidth : (if given then some (margin + 1) else none) = some (margin + 1) ∨
        (if given then some (margin + 1) else none) = none ∧ isGap d = false := by
      cases given with
      | true => exact .inl rfl
      | false => exact .inr ⟨rfl, (hnone rfl).2⟩
    have hbody : blockBody (margin + 1) true (before ++ d :: ds ++ after) =
        before ++ blockBody (margin + 1) true (d :: ds ++ after) := by
      rw [List.append_assoc, blockBody_breaks hbefore]
    obtain ⟨line', hskip⟩ := @emptyLines_breaks (line + 1) before hbefore
      (if given then some (margin + 1) else none)
    have hfirst : emptyLines (if given then some (margin + 1) else none)
        (locate line' 0 0 (blockBody (margin + 1) true (d :: ds ++ after) ++ rest)) =
          some ([], margin + 1, locate line' (margin + 1) (margin + 1)
            (blockBody (margin + 1) false (d :: ds ++ after) ++ rest)) :=
      emptyLines_line hd hwidth
    obtain ⟨column', hcolumn, hempty⟩ := hskip _ _ _ _ hfirst
    have hfuel : (blockBody (margin + 1) false (d :: ds ++ after)).length ≤
        (locate line' (margin + 1) (margin + 1)
          (blockBody (margin + 1) false (d :: ds ++ after) ++ rest)).length := by
      rw [length_locate, List.length_append]
      omega
    obtain ⟨line'', hlines⟩ := @blockLines_body line' (margin + 1) (margin + 1) rest _ _ _
      hcore hafter hoff hfuel
    rw [List.append_nil, ← List.append_assoc, ← hbody] at hempty
    have hread :=
      @block_of_lines line column offset margin _ _ given (Chomping.of after) _ _ _ _ _ _
      hpos hempty (fun h => hcolumn (hnone h).1) (hlines false [] before)
    refine ⟨_, line'', hmore, ?_⟩
    rw [htext, chompingMark_lines hcore hafter, hread]
    rcases after with - | ⟨b, - | ⟨b', bs⟩⟩ <;> simp [Chomping.of]

end TraceWeave.Yaml
