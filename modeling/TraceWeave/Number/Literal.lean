import TraceWeave.Number.Shortest
import TraceWeave.Text.Ascii

/-!
# Reading doubles

A decimal numeral with an optional sign, point and power of ten is read as the double nearest to
it; the words for infinity and not-a-number are read in any case of their letters.
-/

namespace TraceWeave.Binary64

open TraceWeave.Number TraceWeave.Text

/-- The double nearest to a decimal number. Beyond 310 digits before the point every number is
infinite and beyond 330 zeros after it every number is zero, so no large power is computed. -/
def ofDecimal (negative : Bool) (d : Decimal) : Binary64 :=
  let place := d.exponent + (Numeral.ofNat d.digits).length
  if d.digits = 0 ∨ place < -330 then zero negative
  else if 310 < place then infinity negative
  else ofRatio negative d.numerator d.denominator

/-- Reads an optional power of ten, which is all that may follow the digits. -/
def exponent? : List Char → Option Int
  | [] => some 0
  | c :: rest => if c = 'e' ∨ c = 'E' then Numeral.int? rest else none

/-- Reads digits, at least one, with an optional point among them and an optional power of ten
behind them. -/
def unsigned? (cs : List Char) : Option Decimal :=
  let whole := cs.takeWhile Char.isDigit
  let rest := cs.dropWhile Char.isDigit
  let (fraction, rest) := match rest with
    | '.' :: more => (more.takeWhile Char.isDigit, more.dropWhile Char.isDigit)
    | _ => ([], rest)
  if whole.isEmpty && fraction.isEmpty then none
  else (exponent? rest).map fun e => ⟨Numeral.value (whole ++ fraction), e - fraction.length⟩

/-- Reads a double. -/
def read? (cs : List Char) : Option Binary64 :=
  let (negative, body) := match cs with
    | '-' :: rest => (true, rest)
    | '+' :: rest => (false, rest)
    | _ => (false, cs)
  if sameLetters body "nan".toList then some nan
  else if sameLetters body "inf".toList || sameLetters body "infinity".toList then
    some (infinity negative)
  else (unsigned? body).map (ofDecimal negative)

end TraceWeave.Binary64
