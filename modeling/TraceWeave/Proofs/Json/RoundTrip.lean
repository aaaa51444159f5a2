import TraceWeave.Proofs.Json.Numerals
import TraceWeave.Proofs.Json.Strings
import Mathlib.Data.List.DropRight

/-!
# Written values are read back

A printable value is one that has a text of its own: its numbers are numerals, and its strings are
texts. Whatever the layout, as long as it puts nothing but blanks between tokens, the text of a
printable value is read as that value.

* `reads_write`: a value is read up to its end, with a bound on the steps that its text gives;
* `parse_write`: a whole text is read.
-/

namespace TraceWeave.Json

/-! ## Layouts -/

/-- Nothing but blanks stands between tokens. -/
structure Layout.Blank (layout : Layout) : Prop where
  lineBreak_space : ∀ depth, (layout.lineBreak depth).all isSpace = true
  afterColon_space : layout.afterColon.all isSpace = true

theorem Layout.blank_compact : Layout.compact.Blank where
  lineBreak_space _ := rfl
  afterColon_space := rfl

theorem Layout.blank_pretty : Layout.pretty.Blank where
  lineBreak_space depth := by
    simp [Layout.pretty, isSpace]
  afterColon_space := rfl

theorem skipSpace_append {blank : List Char} (hblank : blank.all isSpace = true)
    (rest : List Char) : skipSpace (blank ++ rest) = skipSpace rest :=
  List.dropWhile_append_of_pos (List.all_eq_true.mp hblank)

theorem skipSpace_cons {c : Char} (hc : isSpace c = false) (rest : List Char) :
    skipSpace (c :: rest) = c :: rest := by
  simp [skipSpace, hc]

/-- A value may stand behind blanks. -/
theorem value?_skipSpace (fuel : Nat) (cs : List Char) :
    value? fuel (skipSpace cs) = value? fuel cs := by
  cases fuel with
  | zero => simp [value?]
  | succ fuel => simp only [value?, skipSpace, List.dropWhile_idempotent]

theorem items?_skipSpace (fuel : Nat) (cs : List Char) :
    items? fuel (skipSpace cs) = items? fuel cs := by
  cases fuel with
  | zero => simp [items?]
  | succ fuel => simp only [items?, value?_skipSpace]

theorem members?_skipSpace (fuel : Nat) (cs : List Char) :
    members? fuel (skipSpace cs) = members? fuel cs := by
  cases fuel with
  | zero => simp [members?]
  | succ fuel => simp only [members?, skipSpace, List.dropWhile_idempotent]

/-- No value begins with the bracket that closes an array. -/
theorem skipSpace_ne_bracket {fuel : Nat} {cs : List Char} {read : Json × List Char}
    (h : value? fuel cs = some read) (rest : List Char) : skipSpace cs ≠ ']' :: rest := by
  intro heq
  cases fuel with
  | zero => simp [value?] at h
  | succ fuel =>
    simp only [value?, heq] at h
    cases h

theorem EndsNumber.cons {c : Char} (rest : List Char)
    (hc : c.isDigit = false ∧ c ≠ '.' ∧ c ≠ 'e' ∧ c ≠ 'E') : EndsNumber (c :: rest) := by
  intro d hd
  obtain rfl := Option.some.inj hd
  exact hc

theorem EndsNumber.append {blank rest : List Char} (hblank : blank.all isSpace = true)
    (hrest : EndsNumber rest) : EndsNumber (blank ++ rest) := by
  cases blank with
  | nil => exact hrest
  | cons c blank =>
    apply EndsNumber.cons
    have hc : isSpace c = true := by
      rw [List.all_cons, Bool.and_eq_true] at hblank
      exact hblank.1
    simp only [isSpace, Bool.or_eq_true, beq_iff_eq] at hc
    rcases hc with ((rfl | rfl) | rfl) | rfl <;> decide

/-! ## Printable values -/

/-- A value that has a text of its own. -/
inductive Printable : Json → Prop
  | null : Printable .null
  | bool (b : Bool) : Printable (.bool b)
  | number {n : Numeral} (h : n.WellFormed) : Printable (.number n.literal)
  | text (s : String) : Printable (.string (some s))
  | array {items : List Json} (h : ∀ item ∈ items, Printable item) : Printable (.array items)
  | object {members : List (Option String × Json)} (hkeys : ∀ m ∈ members, m.1.isSome = true)
    (hvalues : ∀ m ∈ members, Printable m.2) : Printable (.object members)

/-- The text of a value at a depth is read as the value, up to its end. -/
def Reads (layout : Layout) (depth : Nat) (j : Json) : Prop :=
  ∀ fuel rest, EndsNumber rest → 2 * (write layout depth j).length ≤ fuel →
    value? fuel (write layout depth j ++ rest) = some (j, rest)

variable {layout : Layout} {depth : Nat}

theorem literal_eq_cons {n : Numeral} (h : n.WellFormed) :
    ∃ c cs, n.literal = c :: cs ∧ (c = '-' ∨ c.isDigit = true) := by
  obtain ⟨d, ds, hwhole⟩ := List.exists_cons_of_ne_nil h.whole_digits.1
  have hdigit : d.isDigit = true := by
    have hall := h.whole_digits.2
    rw [hwhole, List.all_cons, Bool.and_eq_true] at hall
    exact hall.1
  cases hnegative : n.negative with
  | true => exact ⟨'-', _, by simp only [Numeral.literal, hnegative]; rfl, .inl rfl⟩
  | false => exact ⟨d, _, by simp only [Numeral.literal, hnegative, hwhole]; rfl, .inr hdigit⟩

theorem reads_number {n : Numeral} (h : n.WellFormed) : Reads layout depth (.number n.literal) := by
  intro fuel rest hrest hfuel
  obtain ⟨c, cs, hliteral, hc⟩ := literal_eq_cons h
  have hne : ∀ d : Char, d ≠ '-' → d.isDigit = false → c ≠ d := by
    rintro d hsign hdigit rfl
    rcases hc with hc | hc
    · exact hsign hc
    · simp [hdigit] at hc
  have hspace : isSpace c = false := by
    have hblank := hne ' ' (by decide) (by decide)
    have htab := hne '\t' (by decide) (by decide)
    have hline := hne '\n' (by decide) (by decide)
    have hreturn := hne '\r' (by decide) (by decide)
    simp [isSpace, hblank, htab, hline, hreturn]
  have hread := number?_literal h hrest
  obtain ⟨fuel, rfl⟩ : ∃ k, fuel = k + 1 := ⟨fuel - 1, by simp [write, hliteral] at hfuel; omega⟩
  rw [write, hliteral] at *
  rw [List.cons_append] at *
  unfold value?
  rw [skipSpace_cons hspace]
  split
  · next heq => exact absurd (List.cons.inj heq).1 (hne 'n' (by decide) (by decide))
  · next heq => exact absurd (List.cons.inj heq).1 (hne 't' (by decide) (by decide))
  · next heq => exact absurd (List.cons.inj heq).1 (hne 'f' (by decide) (by decide))
  · next heq => exact absurd (List.cons.inj heq).1 (hne '"' (by decide) (by decide))
  · next heq => exact absurd (List.cons.inj heq).1 (hne '[' (by decide) (by decide))
  · next heq => exact absurd (List.cons.inj heq).1 (hne '\x7b' (by decide) (by decide))
  · rw [hread]
    rfl

theorem endsNumber_writeItems (hlayout : layout.Blank) (items : List Json) (rest : List Char) :
    EndsNumber (writeItems layout depth items ++ rest) := by
  cases items with
  | nil =>
    rw [writeItems, List.append_assoc]
    exact .append (hlayout.lineBreak_space depth) (.cons _ (by decide))
  | cons item items =>
    rw [writeItems]
    exact .cons _ (by decide)

theorem items?_write (hlayout : layout.Blank) (items : List Json) :
    ∀ (item : Json) (fuel : Nat) (rest : List Char), Reads layout (depth + 1) item →
      (∀ j ∈ items, Reads layout (depth + 1) j) →
      2 * ((write layout (depth + 1) item).length + (writeItems layout depth items).length) ≤
        fuel →
      items? fuel (write layout (depth + 1) item ++ (writeItems layout depth items ++ rest)) =
        some (item :: items, rest) := by
  induction items with
  | nil =>
    intro item fuel rest hitem _ hfuel
    simp only [writeItems, List.length_append, List.length_singleton] at hfuel
    obtain ⟨fuel, rfl⟩ : ∃ k, fuel = k + 1 := ⟨fuel - 1, by omega⟩
    have hends : EndsNumber (layout.lineBreak depth ++ ']' :: rest) :=
      .append (hlayout.lineBreak_space depth) (.cons _ (by decide))
    have hread := hitem fuel _ hends (by omega)
    simp only [writeItems, List.append_assoc, List.singleton_append, items?, hread]
    simp [skipSpace_append (hlayout.lineBreak_space depth), skipSpace_cons (c := ']') rfl]
  | cons next items ih =>
    intro item fuel rest hitem hitems hfuel
    simp only [writeItems, List.length_append, List.length_cons] at hfuel
    obtain ⟨fuel, rfl⟩ : ∃ k, fuel = k + 1 := ⟨fuel - 1, by omega⟩
    have hread := hitem fuel (',' :: (layout.lineBreak (depth + 1) ++
      (write layout (depth + 1) next ++ (writeItems layout depth items ++ rest))))
      (.cons _ (by decide)) (by omega)
    have hmore := ih next fuel rest (hitems next List.mem_cons_self)
      (fun j hj => hitems j (List.mem_cons_of_mem _ hj)) (by omega)
    simp only [writeItems, List.append_assoc, List.cons_append, items?, hread]
    -- The next item is read behind a line break, which the induction knows nothing of.
    rw [← items?_skipSpace, ← skipSpace_append (hlayout.lineBreak_space (depth + 1)),
      items?_skipSpace] at hmore
    simp [skipSpace_cons (c := ',') rfl, hmore]

theorem members?_write (hlayout : layout.Blank) (members : List (Option String × Json)) :
    ∀ (key : String) (value : Json) (fuel : Nat) (rest : List Char),
      Reads layout (depth + 1) value →
      (∀ m ∈ members, m.1.isSome = true) → (∀ m ∈ members, Reads layout (depth + 1) m.2) →
      2 * ((quoted (some key)).length + (write layout (depth + 1) value).length +
        (writeMembers layout depth members).length) ≤ fuel →
      members? fuel (quoted (some key) ++ ':' :: (layout.afterColon ++
        (write layout (depth + 1) value ++ (writeMembers layout depth members ++ rest)))) =
        some ((some key, value) :: members, rest) := by
  induction members with
  | nil =>
    intro key value fuel rest hvalue _ _ hfuel
    simp only [writeMembers, List.length_append, List.length_singleton] at hfuel
    obtain ⟨fuel, rfl⟩ : ∃ k, fuel = k + 1 := ⟨fuel - 1, by omega⟩
    have hread := hvalue fuel (layout.lineBreak depth ++ '\x7d' :: rest)
      (.append (hlayout.lineBreak_space depth) (.cons _ (by decide))) (by omega)
    rw [← value?_skipSpace, ← skipSpace_append hlayout.afterColon_space, value?_skipSpace] at hread
    simp only [writeMembers, quoted, List.append_assoc, List.cons_append, List.nil_append,
      members?, skipSpace_cons (c := '"') rfl, string?_quoted, Option.bind_eq_bind,
      Option.bind_some]
    simp [skipSpace_cons (c := ':') rfl, hread,
      skipSpace_append (hlayout.lineBreak_space depth), skipSpace_cons (c := '\x7d') rfl]
  | cons next members ih =>
    intro key value fuel rest hvalue hkeys hvalues hfuel
    obtain ⟨nextKey, nextValue⟩ := next
    obtain ⟨nextKey, rfl⟩ := Option.isSome_iff_exists.mp (hkeys _ List.mem_cons_self)
    simp only [writeMembers, List.length_append, List.length_cons] at hfuel
    obtain ⟨fuel, rfl⟩ : ∃ k, fuel = k + 1 := ⟨fuel - 1, by omega⟩
    have hread := hvalue fuel (',' :: (layout.lineBreak (depth + 1) ++ (quoted (some nextKey) ++
      ':' :: (layout.afterColon ++ (write layout (depth + 1) nextValue ++
        (writeMembers layout depth members ++ rest))))))
      (.cons _ (by decide)) (by omega)
    have hmore := ih nextKey nextValue fuel rest (hvalues _ List.mem_cons_self)
      (fun m hm => hkeys m (List.mem_cons_of_mem _ hm))
      (fun m hm => hvalues m (List.mem_cons_of_mem _ hm)) (by omega)
    rw [← members?_skipSpace, ← skipSpace_append (hlayout.lineBreak_space (depth + 1)),
      members?_skipSpace] at hmore
    rw [← value?_skipSpace, ← skipSpace_append hlayout.afterColon_space, value?_skipSpace] at hread
    rw [quoted]
    simp only [writeMembers, List.append_assoc, List.cons_append, List.nil_append, members?,
      skipSpace_cons (c := '"') rfl, string?_quoted, Option.bind_eq_bind, Option.bind_some]
    simp [skipSpace_cons (c := ':') rfl, hread, skipSpace_cons (c := ',') rfl, hmore]

theorem reads_bool (b : Bool) : Reads layout depth (.bool b) := by
  intro fuel rest _ hfuel
  obtain ⟨fuel, rfl⟩ : ∃ k, fuel = k + 1 :=
    ⟨fuel - 1, by cases b <;> simp [write] at hfuel <;> omega⟩
  cases b with
  | true => simp [write, value?, skipSpace_cons (c := 't') rfl]
  | false => simp [write, value?, skipSpace_cons (c := 'f') rfl]

theorem reads_text (s : String) : Reads layout depth (.string (some s)) := by
  intro fuel rest _ hfuel
  obtain ⟨fuel, rfl⟩ : ∃ k, fuel = k + 1 := ⟨fuel - 1, by simp [write, quoted] at hfuel; omega⟩
  simp [write, quoted, value?, skipSpace_cons (c := '"') rfl, string?_quoted]

theorem reads_array (hlayout : layout.Blank) {items : List Json}
    (h : ∀ item ∈ items, Reads layout (depth + 1) item) : Reads layout depth (.array items) := by
  intro fuel rest _ hfuel
  cases items with
  | nil =>
    obtain ⟨fuel, rfl⟩ : ∃ k, fuel = k + 1 := ⟨fuel - 1, by simp [write] at hfuel; omega⟩
    simp [write, value?, skipSpace_cons (c := '[') rfl, skipSpace_cons (c := ']') rfl]
  | cons item items =>
    simp only [write, List.length_append, List.length_cons] at hfuel
    obtain ⟨fuel, rfl⟩ : ∃ k, fuel = k + 1 := ⟨fuel - 1, by omega⟩
    have hitem := h item List.mem_cons_self
    have hitems := items?_write hlayout items item fuel rest hitem
      (fun j hj => h j (List.mem_cons_of_mem _ hj)) (by omega)
    have hread := hitem _ (writeItems layout depth items ++ rest)
      (endsNumber_writeItems hlayout items rest) (Nat.le_refl _)
    simp only [write, List.cons_append, List.append_assoc, value?, skipSpace_cons (c := '[') rfl]
    rw [skipSpace_append (hlayout.lineBreak_space (depth + 1))]
    split
    · next heq => exact absurd heq (skipSpace_ne_bracket hread _)
    · rw [items?_skipSpace, hitems]
      rfl

theorem reads_object (hlayout : layout.Blank) {members : List (Option String × Json)}
    (hkeys : ∀ m ∈ members, m.1.isSome = true)
    (hvalues : ∀ m ∈ members, Reads layout (depth + 1) m.2) :
    Reads layout depth (.object members) := by
  intro fuel rest _ hfuel
  cases members with
  | nil =>
    obtain ⟨fuel, rfl⟩ : ∃ k, fuel = k + 1 := ⟨fuel - 1, by simp [write] at hfuel; omega⟩
    simp [write, value?, skipSpace_cons (c := '\x7b') rfl, skipSpace_cons (c := '\x7d') rfl]
  | cons m members =>
    obtain ⟨key, value⟩ := m
    obtain ⟨key, rfl⟩ := Option.isSome_iff_exists.mp (hkeys _ List.mem_cons_self)
    simp only [write, List.length_append, List.length_cons] at hfuel
    obtain ⟨fuel, rfl⟩ : ∃ k, fuel = k + 1 := ⟨fuel - 1, by omega⟩
    have hmembers := members?_write hlayout members key value fuel rest
      (hvalues _ List.mem_cons_self) (fun m hm => hkeys m (List.mem_cons_of_mem _ hm))
      (fun m hm => hvalues m (List.mem_cons_of_mem _ hm)) (by omega)
    have hquote : skipSpace (quoted (some key) ++ ':' :: (layout.afterColon ++
        (write layout (depth + 1) value ++ (writeMembers layout depth members ++ rest)))) =
        '"' :: (key.toList.flatMap escaped ++ ['"'] ++ ':' :: (layout.afterColon ++
          (write layout (depth + 1) value ++ (writeMembers layout depth members ++ rest)))) :=
      skipSpace_cons rfl _
    simp only [write, List.cons_append, List.append_assoc, value?,
      skipSpace_cons (c := '\x7b') rfl]
    rw [skipSpace_append (hlayout.lineBreak_space (depth + 1))]
    split
    · next heq =>
      rw [hquote] at heq
      exact absurd (List.cons.inj heq).1 (by decide)
    · rw [members?_skipSpace, hmembers]
      rfl

/-- What is written is read back, up to its end. -/
theorem reads_write (hlayout : layout.Blank) {j : Json} (h : j.Printable) :
    ∀ depth, Reads layout depth j := by
  induction h with
  | null =>
    intro depth fuel rest _ hfuel
    obtain ⟨fuel, rfl⟩ : ∃ k, fuel = k + 1 := ⟨fuel - 1, by simp [write] at hfuel; omega⟩
    simp [write, value?, skipSpace_cons (c := 'n') rfl]
  | bool b => exact fun _ => reads_bool b
  | number h => exact fun _ => reads_number h
  | text s => exact fun _ => reads_text s
  | array h ih =>
    intro depth
    exact reads_array hlayout fun item hitem => ih item hitem (depth + 1)
  | object hkeys hvalues ih =>
    intro depth
    exact reads_object hlayout hkeys fun m hm => ih m hm (depth + 1)

/-- A text that holds a printable value, and blanks behind it, is read as the value. -/
theorem parse_write (hlayout : layout.Blank) {j : Json} (h : j.Printable) {blank : List Char}
    (hblank : blank.all isSpace = true) : parse (write layout depth j ++ blank) = some j := by
  have hends : EndsNumber (blank ++ []) := .append hblank (by simp [EndsNumber])
  have hread := reads_write hlayout h depth (2 * (write layout depth j ++ blank).length + 2) blank
    (by simpa using hends) (by rw [List.length_append]; omega)
  have hskip : skipSpace blank = [] := by
    have happend := skipSpace_append hblank []
    rwa [List.append_nil] at happend
  rw [parse, hread]
  simp [hskip]

theorem parse_compact {j : Json} (h : j.Printable) : parse (compact j).toList = some j := by
  have hparse : parse (write .compact 0 j ++ []) = some j := parse_write Layout.blank_compact h rfl
  rwa [List.append_nil, ← String.toList_ofList (l := write .compact 0 j)] at hparse

end TraceWeave.Json
