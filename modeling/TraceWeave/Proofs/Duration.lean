import TraceWeave.Duration
import TraceWeave.Proofs.Number.Digits
import TraceWeave.Text.Ascii

/-!
# Written durations are read back

A duration is written as amounts of the units, of which those that are zero are left out. Reading
adds up what it finds, and in nanoseconds the amounts add up to the duration.

* `readParts?_spelled`: amounts with blanks between them are read one by one and added up;
* `addAll?_eq`: amounts that fit are added without a carry getting lost;
* `read?_write`: a written duration is read as itself.
-/

namespace TraceWeave.Duration

open Text

/-! ## Nanoseconds -/

/-- All of a duration in nanoseconds. -/
def total (d : Duration) : Nat :=
  d.seconds.toNat * 1_000_000_000 + d.nanos

theorem nanos_mod_lt (n : Nat) : n % 1_000_000_000 < 1_000_000_000 :=
  Nat.mod_lt n (by decide)

/-- The duration of so many nanoseconds. -/
def ofTotal (n : Nat) : Duration :=
  ⟨UInt64.ofNat (n / 1_000_000_000), n % 1_000_000_000, nanos_mod_lt n⟩

/-- The nanoseconds of a unit. -/
def Unit.nanos (u : Unit) : Nat :=
  if u.isBelowSecond then u.length else u.length * 1_000_000_000

theorem total_le (d : Duration) : d.total ≤ limit * 1_000_000_000 + 999_999_999 := by
  have hseconds : d.seconds.toNat < 2 ^ 64 := d.seconds.toNat_lt
  have hnanos := d.nanos_lt
  simp only [total, limit]
  omega

theorem ofTotal_total (d : Duration) : ofTotal d.total = d := by
  obtain ⟨seconds, nanos, hnanos⟩ := d
  have hquot : (seconds.toNat * 1_000_000_000 + nanos) / 1_000_000_000 = seconds.toNat := by omega
  have hmod : (seconds.toNat * 1_000_000_000 + nanos) % 1_000_000_000 = nanos := by omega
  simp only [ofTotal, total, hquot, hmod, UInt64.ofNat_toNat]

theorem total_ofTotal {n : Nat} (hn : n ≤ limit * 1_000_000_000 + 999_999_999) :
    (ofTotal n).total = n := by
  have hword : n / 1_000_000_000 < 2 ^ 64 := by
    simp only [limit] at hn
    omega
  simp only [ofTotal, total, UInt64.toNat_ofNat_of_lt' hword]
  omega

theorem add?_eq {d : Duration} {seconds nanos : Nat} (hnanos : nanos < 1_000_000_000)
    (hfit : d.total + (seconds * 1_000_000_000 + nanos) ≤ limit * 1_000_000_000 + 999_999_999) :
    d.add? seconds nanos = some (ofTotal (d.total + (seconds * 1_000_000_000 + nanos))) := by
  have hlt := d.nanos_lt
  simp only [total] at hfit ⊢
  have hlow : d.nanos + nanos ≤ limit := by
    simp only [limit]
    omega
  have hhigh : d.seconds.toNat + seconds + (d.nanos + nanos) / 1_000_000_000 ≤ limit := by omega
  have hquot : d.seconds.toNat + seconds + (d.nanos + nanos) / 1_000_000_000 =
      (d.seconds.toNat * 1_000_000_000 + d.nanos + (seconds * 1_000_000_000 + nanos)) /
        1_000_000_000 := by omega
  have hmod : (d.nanos + nanos) % 1_000_000_000 =
      (d.seconds.toNat * 1_000_000_000 + d.nanos + (seconds * 1_000_000_000 + nanos)) %
        1_000_000_000 := by omega
  simp only [add?, word?, if_pos hlow, if_pos hhigh, Option.bind_eq_bind, Option.bind_some, ofTotal,
    ← hquot, ← hmod]
  rfl

/-! ## Amounts -/

/-- A number of units, and the word that is written for the unit. -/
structure Amount where
  count : Nat
  unit : Unit
  word : String

namespace Amount

def text (a : Amount) : List Char :=
  Numeral.ofNat a.count ++ a.word.toList

def total (a : Amount) : Nat :=
  a.count * a.unit.nanos

/-- The word is known, and the number of units does not come to a second unless the unit does. -/
structure Readable (a : Amount) : Prop where
  fits : a.count ≤ limit
  known : Unit.ofWord? a.word.toList = some a.unit
  letters : a.word.toList.all isLetter = true
  small : a.unit.isBelowSecond = true → a.count * a.unit.length < 1_000_000_000

end Amount

theorem addWhole?_eq {d : Duration} {a : Amount} (ha : a.Readable)
    (hfit : d.total + a.total ≤ limit * 1_000_000_000 + 999_999_999) :
    d.addWhole? a.unit a.count = some (ofTotal (d.total + a.total)) := by
  have hsmall := ha.small
  cases hunit : a.unit.isBelowSecond with
  | true =>
    have hlt := hsmall hunit
    have htotal : a.total = 0 * 1_000_000_000 + a.count * a.unit.length := by
      simp [Amount.total, Unit.nanos, hunit]
    have hword : a.count * a.unit.length ≤ limit := by
      simp only [limit]
      omega
    rw [htotal] at hfit ⊢
    simp only [addWhole?, word?, if_pos hword, hunit, addAmount?, if_true, Option.bind_eq_bind,
      Option.bind_some]
    exact add?_eq hlt hfit
  | false =>
    have htotal : a.total = a.count * a.unit.length * 1_000_000_000 + 0 := by
      simp [Amount.total, Unit.nanos, hunit, Nat.mul_assoc]
    have hword : a.count * a.unit.length ≤ limit := by omega
    rw [htotal] at hfit ⊢
    simp only [addWhole?, word?, if_pos hword, hunit, addAmount?, Option.bind_eq_bind,
      Option.bind_some]
    exact add?_eq (by decide) hfit

theorem sum_total_cons (a : Amount) (amounts : List Amount) :
    ((a :: amounts).map Amount.total).sum = a.total + (amounts.map Amount.total).sum := by
  rw [List.map_cons, List.sum_cons]

/-- Adds amounts one by one. -/
def addAll? (d : Duration) : List Amount → Option Duration
  | [] => some d
  | a :: amounts => (d.addWhole? a.unit a.count).bind (addAll? · amounts)

theorem addAll?_eq {d : Duration} {amounts : List Amount} (hread : ∀ a ∈ amounts, a.Readable)
    (hfit : d.total + (amounts.map Amount.total).sum ≤ limit * 1_000_000_000 + 999_999_999) :
    addAll? d amounts = some (ofTotal (d.total + (amounts.map Amount.total).sum)) := by
  induction amounts generalizing d with
  | nil => simp [addAll?, ofTotal_total]
  | cons a amounts ih =>
    rw [sum_total_cons, ← Nat.add_assoc] at hfit ⊢
    have hfirst : d.total + a.total ≤ limit * 1_000_000_000 + 999_999_999 := by omega
    have hnext := total_ofTotal hfirst
    rw [addAll?, addWhole?_eq (hread a List.mem_cons_self) hfirst, Option.bind_some]
    rw [ih (fun b hb => hread b (List.mem_cons_of_mem _ hb)) (by rw [hnext]; exact hfit), hnext]

/-! ## Reading -/

theorem isBlank_of_isDigit {c : Char} (h : c.isDigit = true) : isBlank c = false := by
  have hcode : 0x30 ≤ c.toNat ∧ c.toNat ≤ 0x39 := Char.isDigit_iff_toNat.mp h
  simp only [isBlank, Bool.or_eq_false_iff, Bool.and_eq_false_iff, decide_eq_false_iff_not,
    beq_eq_false_iff_ne]
  omega

theorem not_belongs_of_isLetter {c : Char} (h : isLetter c = true) :
    (c.isDigit || isBlank c) = false := by
  have hcode : (0x41 ≤ c.toNat ∧ c.toNat ≤ 0x5A) ∨ (0x61 ≤ c.toNat ∧ c.toNat ≤ 0x7A) ∨
      c.toNat = 0xB5 := by
    have halpha : c.isAlpha = (c.isUpper || c.isLower) := rfl
    rw [isLetter, halpha, Bool.or_eq_true, Bool.or_eq_true, beq_iff_eq] at h
    rcases h with (h | h) | rfl
    · exact .inl (isUpper_iff.mp h)
    · exact .inr (.inl (isLower_iff.mp h))
    · exact .inr (.inr rfl)
  have hdigit : c.isDigit = false := by
    rw [Bool.eq_false_iff, Ne, Char.isDigit_iff_toNat]
    show ¬(0x30 ≤ c.toNat ∧ c.toNat ≤ 0x39)
    omega
  have hblank : isBlank c = false := by
    simp only [isBlank, Bool.or_eq_false_iff, Bool.and_eq_false_iff, decide_eq_false_iff_not,
      beq_eq_false_iff_ne]
    omega
  rw [hdigit, hblank, Bool.or_self]

theorem digitsThen_ofNat (n : Nat) {c : Char} (hc : isLetter c = true) (cs : List Char) :
    digitsThen (Numeral.ofNat n ++ c :: cs) = (Numeral.ofNat n, c :: cs) := by
  have hall := List.all_eq_true.mp (Numeral.all_isDigit_ofNat n)
  have hbelongs : ∀ d ∈ Numeral.ofNat n, (d.isDigit || isBlank d) = true := by
    intro d hd
    rw [hall d hd, Bool.true_or]
  have hstop := not_belongs_of_isLetter hc
  rw [digitsThen, List.takeWhile_append_of_pos hbelongs, List.dropWhile_append_of_pos hbelongs,
    List.takeWhile_cons_of_neg (by simp [hstop]), List.dropWhile_cons_of_neg (by simp [hstop]),
    List.append_nil, List.filter_eq_self.mpr hall]

namespace Amount.Readable

variable {a : Amount}

theorem word_eq_cons (h : a.Readable) :
    ∃ c cs, a.word.toList = c :: cs ∧ isLetter c = true := by
  cases hword : a.word.toList with
  | nil =>
    have hknown := h.known
    rw [hword] at hknown
    exact absurd hknown (by simp [show Unit.ofWord? [] = none by decide])
  | cons c cs =>
    have hletters := h.letters
    rw [hword, List.all_cons, Bool.and_eq_true] at hletters
    exact ⟨c, cs, rfl, hletters.1⟩

/-- One amount is read up to a blank. -/
theorem readParts?_text (h : a.Readable) (d : Duration) (fuel : Nat) {rest : List Char}
    (hrest : ∀ c ∈ rest.head?, c = ' ') :
    readParts? d (fuel + 1) (a.text ++ rest) =
      (d.addWhole? a.unit a.count).bind fun d =>
        match trimFront rest with
        | [] => some d
        | c :: rest => if c.isDigit then readParts? d fuel (c :: rest) else none := by
  obtain ⟨c, cs, hword, hc⟩ := h.word_eq_cons
  have hdigits := digitsThen_ofNat a.count hc (cs ++ rest)
  have hpoint : c ≠ '.' := by
    rintro rfl
    exact absurd hc (by decide)
  have hletters := List.all_eq_true.mp h.letters
  have hknown := h.known
  rw [hword] at hletters hknown
  have hend : rest.takeWhile isLetter = [] ∧ rest.dropWhile isLetter = rest := by
    cases rest with
    | nil => exact ⟨rfl, rfl⟩
    | cons e rest =>
      rw [hrest e rfl]
      exact ⟨rfl, rfl⟩
  have htake : (c :: (cs ++ rest)).takeWhile isLetter = c :: cs := by
    rw [← List.cons_append, List.takeWhile_append_of_pos hletters, hend.1, List.append_nil]
  have hdrop : (c :: (cs ++ rest)).dropWhile isLetter = rest := by
    rw [← List.cons_append, List.dropWhile_append_of_pos hletters, hend.2]
  rw [readParts?, Amount.text, hword, List.append_assoc, List.cons_append, hdigits]
  simp only [Numeral.nat?_ofNat, Option.bind_some, word?, if_pos h.fits, htake, hdrop, hknown,
    Option.bind_eq_bind, Option.elim_none]
  split
  · next heq => exact absurd (List.cons.inj heq).1 hpoint
  · rfl

end Amount.Readable

/-- Amounts with blanks between them. -/
def spelled (amounts : List Amount) : List Char :=
  [' '].intercalate (amounts.map Amount.text)

theorem spelled_singleton (a : Amount) : spelled [a] = a.text := by
  simp [spelled, List.intercalate]

theorem spelled_cons_cons (a b : Amount) (amounts : List Amount) :
    spelled (a :: b :: amounts) = a.text ++ ' ' :: spelled (b :: amounts) := by
  simp [spelled, List.intercalate]

theorem spelled_eq_cons (a : Amount) (amounts : List Amount) :
    ∃ c cs, spelled (a :: amounts) = c :: cs ∧ c.isDigit = true := by
  obtain ⟨c, cs, hnumeral⟩ := List.exists_cons_of_ne_nil (Numeral.ofNat_ne_nil a.count)
  have hdigit := Numeral.isDigit_of_ofNat_eq_cons hnumeral
  cases amounts with
  | nil =>
    rw [spelled_singleton, Amount.text, hnumeral, List.cons_append]
    exact ⟨c, _, rfl, hdigit⟩
  | cons b amounts =>
    rw [spelled_cons_cons, Amount.text, hnumeral, List.cons_append, List.cons_append]
    exact ⟨c, _, rfl, hdigit⟩

theorem trimFront_digit {c : Char} (hc : c.isDigit = true) (cs : List Char) :
    trimFront (c :: cs) = c :: cs :=
  trimFront_eq_self (isBlank_of_isDigit hc)

theorem readParts?_spelled (a : Amount) {amounts : List Amount}
    (hread : ∀ b ∈ a :: amounts, b.Readable) (d : Duration) {fuel : Nat}
    (hfuel : amounts.length < fuel) :
    readParts? d fuel (spelled (a :: amounts)) = addAll? d (a :: amounts) := by
  induction amounts generalizing a d fuel with
  | nil =>
    obtain ⟨fuel, rfl⟩ := Nat.exists_eq_add_one_of_ne_zero (Nat.ne_of_gt hfuel)
    have hend : ∀ c ∈ ([] : List Char).head?, c = ' ' := by simp
    have hstep := (hread a List.mem_cons_self).readParts?_text d fuel hend
    rw [List.append_nil] at hstep
    rw [spelled_singleton, hstep]
    rfl
  | cons b amounts ih =>
    obtain ⟨fuel, rfl⟩ := Nat.exists_eq_add_one_of_ne_zero (Nat.ne_of_gt (Nat.zero_lt_of_lt hfuel))
    obtain ⟨c, cs, hcs, hdigit⟩ := spelled_eq_cons b amounts
    have hblank : trimFront (' ' :: c :: cs) = c :: cs := by
      rw [trimFront, List.dropWhile_cons_of_pos (by decide)]
      exact trimFront_digit hdigit cs
    rw [spelled_cons_cons, (hread a List.mem_cons_self).readParts?_text d fuel (by simp), hcs,
      hblank, addAll?]
    simp only [hdigit, if_true, ← hcs]
    congr 1
    funext e
    rw [List.length_cons] at hfuel
    exact ih b (fun x hx => hread x (List.mem_cons_of_mem _ hx)) e (by omega)

theorem Amount.Readable.one_lt_length {a : Amount} (h : a.Readable) : 1 < a.text.length := by
  obtain ⟨c, cs, hword, -⟩ := h.word_eq_cons
  have hpos := Numeral.length_ofNat_pos a.count
  rw [Amount.text, List.length_append, hword, List.length_cons]
  omega

theorem length_lt_spelled (a : Amount) {amounts : List Amount}
    (hread : ∀ b ∈ a :: amounts, b.Readable) :
    amounts.length + 1 < (spelled (a :: amounts)).length := by
  have ha := (hread a List.mem_cons_self).one_lt_length
  induction amounts generalizing a with
  | nil =>
    rw [spelled_singleton]
    exact ha
  | cons b amounts ih =>
    have hrest := fun x hx => hread x (List.mem_cons_of_mem _ hx)
    have hb := ih b hrest (hrest b List.mem_cons_self).one_lt_length
    rw [spelled_cons_cons, List.length_append, List.length_cons, List.length_cons]
    omega

/-! ## Writing -/

/-- A word in the singular or the plural. -/
def plural (n : Nat) (word : String) : String :=
  if n = 1 then word else word ++ "s"

/-- A duration in all units, the longest first. -/
def amounts (d : Duration) : List Amount :=
  let seconds := d.seconds.toNat
  let inYear := seconds % Unit.year.length
  let inMonth := inYear % Unit.month.length
  let inDay := inMonth % Unit.day.length
  let years := seconds / Unit.year.length
  let months := inYear / Unit.month.length
  let days := inMonth / Unit.day.length
  [⟨years, .year, plural years "year"⟩, ⟨months, .month, plural months "month"⟩,
    ⟨days, .day, plural days "day"⟩, ⟨inDay / 3600, .hour, "h"⟩, ⟨inDay % 3600 / 60, .minute, "m"⟩,
    ⟨inDay % 60, .second, "s"⟩, ⟨d.nanos / 1000000, .millisecond, "ms"⟩,
    ⟨d.nanos / 1000 % 1000, .microsecond, "us"⟩, ⟨d.nanos % 1000, .nanosecond, "ns"⟩]

/-- The amounts that are written. -/
def written (d : Duration) : List Amount :=
  d.amounts.filter (·.count ≠ 0)

theorem part_eq (n : Nat) (unit : Unit) (word : String) (amounts : List Amount) :
    part n word ++ (amounts.filter (·.count ≠ 0)).map Amount.text =
      ((⟨n, unit, word⟩ :: amounts).filter (·.count ≠ 0)).map Amount.text := by
  by_cases hn : n = 0
  · simp [part, hn]
  · simp [part, hn, Amount.text]

theorem write_eq (d : Duration) :
    d.write = if d.written = [] then "0s".toList else spelled d.written := by
  have hparts : d.write = if (d.written.map Amount.text).isEmpty then "0s".toList
      else spelled d.written := by
    simp only [spelled, written, amounts, ← part_eq, List.filter_nil, List.map_nil,
      List.append_nil, ← List.append_assoc]
    rfl
  rw [hparts]
  simp

theorem plural_eq (n : Nat) (word : String) :
    plural n word = word ∨ plural n word = word ++ "s" := by
  unfold plural
  split
  · exact .inl rfl
  · exact .inr rfl

theorem readable_of_plural {n : Nat} {u : Unit} {word : String} (hn : n ≤ limit)
    (hu : u.isBelowSecond = false) (hone : Unit.ofWord? word.toList = some u)
    (hmany : Unit.ofWord? (word ++ "s").toList = some u)
    (hletters : (word ++ "s").toList.all isLetter = true) :
    Amount.Readable ⟨n, u, plural n word⟩ := by
  have hsmall : u.isBelowSecond = true → n * u.length < 1_000_000_000 := by simp [hu]
  rcases plural_eq n word with h | h
  · rw [h]
    rw [String.toList_append, List.all_append, Bool.and_eq_true] at hletters
    exact ⟨hn, hone, hletters.1, hsmall⟩
  · rw [h]
    exact ⟨hn, hmany, hletters, hsmall⟩

theorem readable_of_word {n : Nat} {u : Unit} {word : String} (hn : n ≤ limit)
    (hword : Unit.ofWord? word.toList = some u) (hletters : word.toList.all isLetter = true)
    (hsmall : u.isBelowSecond = true → n * u.length < 1_000_000_000) :
    Amount.Readable ⟨n, u, word⟩ :=
  ⟨hn, hword, hletters, hsmall⟩

theorem readable_amounts (d : Duration) : ∀ a ∈ d.amounts, a.Readable := by
  have hseconds : d.seconds.toNat < 2 ^ 64 := d.seconds.toNat_lt
  have hnanos := d.nanos_lt
  simp only [amounts, Unit.length, List.forall_mem_cons]
  refine ⟨readable_of_plural ?_ rfl (by decide) (by decide) (by decide),
    readable_of_plural ?_ rfl (by decide) (by decide) (by decide),
    readable_of_plural ?_ rfl (by decide) (by decide) (by decide),
    readable_of_word ?_ (by decide) (by decide) (fun h => absurd h (by decide)),
    readable_of_word ?_ (by decide) (by decide) (fun h => absurd h (by decide)),
    readable_of_word ?_ (by decide) (by decide) (fun h => absurd h (by decide)),
    readable_of_word ?_ (by decide) (by decide) (fun _ => ?_),
    readable_of_word ?_ (by decide) (by decide) (fun _ => ?_),
    readable_of_word ?_ (by decide) (by decide) (fun _ => ?_), List.forall_mem_nil _⟩
  all_goals simp only [limit, Unit.length]
  all_goals omega

theorem sum_total_filter (amounts : List Amount) :
    ((amounts.filter (·.count ≠ 0)).map Amount.total).sum = (amounts.map Amount.total).sum := by
  induction amounts with
  | nil => rfl
  | cons a amounts ih =>
    by_cases ha : a.count = 0
    · have hzero : a.total = 0 := by rw [Amount.total, ha, Nat.zero_mul]
      rw [List.filter_cons_of_neg (by simpa using ha), ih, sum_total_cons, hzero, Nat.zero_add]
    · rw [List.filter_cons_of_pos (by simpa using ha), sum_total_cons, sum_total_cons, ih]

theorem total_of_second {u : Unit} (hu : u.isBelowSecond = false) (n : Nat) (word : String) :
    Amount.total ⟨n, u, word⟩ = n * u.length * 1_000_000_000 := by
  rw [Amount.total, Unit.nanos, hu, if_neg (by decide), Nat.mul_assoc]

theorem total_of_below {u : Unit} (hu : u.isBelowSecond = true) (n : Nat) (word : String) :
    Amount.total ⟨n, u, word⟩ = n * u.length := by
  rw [Amount.total, Unit.nanos, if_pos hu]

/-- In nanoseconds, all that is written adds up to the duration. -/
theorem sum_total_written (d : Duration) : (d.written.map Amount.total).sum = d.total := by
  have hyear : Unit.year.length = 31557600 := rfl
  have hmonth : Unit.month.length = 2630016 := rfl
  have hday : Unit.day.length = 86400 := rfl
  have hhour : Unit.hour.length = 3600 := rfl
  have hminute : Unit.minute.length = 60 := rfl
  have hsecond : Unit.second.length = 1 := rfl
  have hmilli : Unit.millisecond.length = 1000000 := rfl
  have hmicro : Unit.microsecond.length = 1000 := rfl
  have hnano : Unit.nanosecond.length = 1 := rfl
  rw [written, sum_total_filter, total]
  simp only [amounts, sum_total_cons]
  rw [total_of_second rfl, total_of_second rfl, total_of_second rfl, total_of_second rfl,
    total_of_second rfl, total_of_second rfl, total_of_below rfl, total_of_below rfl,
    total_of_below rfl, hyear, hmonth, hday, hhour, hminute, hsecond, hmilli, hmicro, hnano,
    List.map_nil, List.sum_nil]
  omega

theorem read?_write (d : Duration) : read? d.write = some d := by
  have hread : ∀ a ∈ d.written, a.Readable :=
    fun a ha => readable_amounts d a ((List.mem_filter.mp ha).1)
  have hsum := sum_total_written d
  have hfit : zero.total + (d.written.map Amount.total).sum ≤
      limit * 1_000_000_000 + 999_999_999 := by
    have hle := d.total_le
    rw [hsum, show zero.total = 0 from rfl]
    omega
  have hall := addAll?_eq hread hfit
  rw [hsum, show zero.total = 0 from rfl, Nat.zero_add, ofTotal_total] at hall
  rw [write_eq]
  cases hwritten : d.written with
  | nil =>
    rw [hwritten] at hall
    rw [if_pos rfl, ← hall]
    decide
  | cons a amounts =>
    obtain ⟨c, cs, hcs, hdigit⟩ := spelled_eq_cons a amounts
    rw [hwritten] at hall hread
    have hlength := length_lt_spelled a hread
    have hzero : spelled (a :: amounts) ≠ ['0'] := by
      intro h
      rw [h, List.length_singleton] at hlength
      omega
    rw [if_neg (List.cons_ne_nil _ _), read?, if_neg hzero, ← hall,
      ← readParts?_spelled a hread zero (Nat.lt_of_succ_lt hlength), hcs, trimFront_digit hdigit]
    simp only [hdigit, if_true]

end TraceWeave.Duration
