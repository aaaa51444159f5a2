import TraceWeave.Number.Literal
import TraceWeave.Text.Numeral

/-!
# What plain text reads as

Which texts stand for a truth value, a number or nothing at all when they are written without
quotation marks. Whole numbers may be written to the base of 16, 8 or 2 behind `0x`, `0o` or `0b`.
A run of digits that begins with a superfluous zero is a text.

* `unsigned?_le`: what is read does not exceed the bound.
-/

namespace TraceWeave.Yaml.Plain

open TraceWeave.Text

/-- Reads a truth value. -/
def bool? (cs : List Char) : Option Bool :=
  if ["true", "True", "TRUE"].any (·.toList = cs) then some true
  else if ["false", "False", "FALSE"].any (·.toList = cs) then some false
  else none

/-- Reads the word for no value. -/
def isNull (cs : List Char) : Bool :=
  ["null", "Null", "NULL", "~"].any (·.toList = cs)

/-- The value of a digit to a base of at most 16. -/
def digit? (base : Nat) (c : Char) : Option Nat :=
  let value :=
    if '0' ≤ c ∧ c ≤ '9' then some (c.toNat - 0x30)
    else if 'a' ≤ c ∧ c ≤ 'f' then some (c.toNat - 0x61 + 10)
    else if 'A' ≤ c ∧ c ≤ 'F' then some (c.toNat - 0x41 + 10)
    else none
  value.filter (· < base)

/-- Reads one or more digits to a base, up to a bound. -/
def digits? (base bound : Nat) (cs : List Char) : Option Nat :=
  if cs.isEmpty then none
  else do
    let digits ← cs.mapM (digit? base)
    (some (digits.foldl (fun n digit => base * n + digit) 0)).filter (· ≤ bound)

/-- The base that a number is written to, and the rest of it. -/
def base : List Char → Nat × List Char
  | '0' :: 'x' :: rest => (16, rest)
  | '0' :: 'o' :: rest => (8, rest)
  | '0' :: 'b' :: rest => (2, rest)
  | cs => (10, cs)

def withoutPlus : List Char → List Char
  | '+' :: rest => rest
  | cs => cs

/-- Digits, possibly behind a sign, with a zero in front that they do not need. -/
def hasSpareZero (cs : List Char) : Bool :=
  let body := match cs with
    | '-' :: rest | '+' :: rest => rest
    | _ => cs
  match body with
  | '0' :: rest => !rest.isEmpty && rest.all Char.isDigit
  | _ => false

/-- Reads a number that is not negative, up to a bound. -/
def unsigned? (bound : Nat) (cs : List Char) : Option Nat :=
  if hasSpareZero cs then none
  else
    let (base, digits) := base (withoutPlus cs)
    digits? base bound digits

/-- Reads a negative number, down to a bound. -/
def negative? (bound : Nat) : List Char → Option Nat
  | '-' :: rest =>
    if hasSpareZero rest then none
    else
      let (base, digits) := base rest
      digits? base bound digits
  | _ => none

/-- Reads as a number with a point or a power of ten. -/
def isDouble (cs : List Char) : Bool :=
  let isSigned := match cs with
    | '+' :: c :: _ => c == '+' || c == '-'
    | _ => false
  let body := withoutPlus cs
  !isSigned &&
    ([".inf", ".Inf", ".INF"].any (·.toList = body) ||
      ["-.inf", "-.Inf", "-.INF", ".nan", ".NaN", ".NAN"].any (·.toList = cs) ||
      (!body.isEmpty && (Binary64.read? body).any (·.isFinite)))

/-- Reads as something else than a text, at least to some readers. -/
def isAmbiguous (cs : List Char) : Bool :=
  cs.isEmpty || isNull cs || (bool? cs).isSome || hasSpareZero cs ||
    (unsigned? 0xFFFF_FFFF_FFFF_FFFF_FFFF_FFFF_FFFF_FFFF cs).isSome ||
    (negative? 0x8000_0000_0000_0000_0000_0000_0000_0000 cs).isSome || isDouble cs

theorem unsigned?_le {bound n : Nat} {cs : List Char} (h : unsigned? bound cs = some n) :
    n ≤ bound := by
  unfold unsigned? digits? at h
  split at h
  · exact absurd h (by simp)
  · simp only at h
    split at h
    · exact absurd h (by simp)
    · obtain ⟨digits, -, h⟩ := Option.bind_eq_some_iff.1 h
      simp only [Option.filter_eq_some_iff, Option.some.injEq, decide_eq_true_eq] at h
      exact h.2

end TraceWeave.Yaml.Plain
