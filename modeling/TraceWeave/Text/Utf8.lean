/-!
# Byte measures of a text

Identifiers are limited and abbreviated by the length of their UTF-8 form, so a text is measured
and cut in bytes here.

* `splitAtByte?_append`: the two parts make up the text and the first has the length asked for.
-/

namespace TraceWeave.Text

/-- The length of the UTF-8 form. -/
def byteLength : List Char → Nat
  | [] => 0
  | c :: cs => c.utf8Size + byteLength cs

/-- The text cut after `n` bytes, unless it is shorter or the cut falls inside a character. -/
def splitAtByte? : Nat → List Char → Option (List Char × List Char)
  | 0, cs => some ([], cs)
  | _ + 1, [] => none
  | n + 1, c :: cs =>
    if c.utf8Size ≤ n + 1 then
      (splitAtByte? (n + 1 - c.utf8Size) cs).map fun (front, back) => (c :: front, back)
    else
      none

/-- The first eight bytes, or all of a text that has no cut there. -/
def abbreviation (cs : List Char) : List Char :=
  match splitAtByte? 8 cs with
  | some (front, _) => front
  | none => cs

theorem splitAtByte?_append {n : Nat} {cs front back : List Char}
    (h : splitAtByte? n cs = some (front, back)) :
    cs = front ++ back ∧ byteLength front = n := by
  induction cs generalizing n front with
  | nil =>
    cases n with
    | zero => simp_all [splitAtByte?, byteLength]
    | succ n => simp [splitAtByte?] at h
  | cons c cs ih =>
    cases n with
    | zero =>
      simp only [splitAtByte?, Option.some.injEq, Prod.mk.injEq] at h
      obtain ⟨rfl, rfl⟩ := h
      simp [byteLength]
    | succ n =>
      simp only [splitAtByte?] at h
      split at h
      · next hle =>
        obtain ⟨⟨front', back'⟩, hcut, hpair⟩ := Option.map_eq_some_iff.1 h
        simp only [Prod.mk.injEq] at hpair
        obtain ⟨rfl, rfl⟩ := hpair
        obtain ⟨hcs, hlen⟩ := ih hcut
        refine ⟨by simp [hcs], ?_⟩
        simp only [byteLength]
        omega
      · exact absurd h (by simp)

end TraceWeave.Text
