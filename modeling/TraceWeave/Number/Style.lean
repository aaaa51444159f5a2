import TraceWeave.Number.Shortest

/-!
# Writing doubles

Two ways of writing a double share one scheme: the fewest digits that read back, written out in
full while the first digit lies between two places, and with a power of ten beyond them. A third
way writes a fixed number of places.

* `Style.display`: how values are shown and compared with filters;
* `Style.json`: how they stand in JSON text, which has no word for what is not a number;
* `fixedPlaces`: a fixed number of places, a half going to the even neighbour.
-/

namespace TraceWeave.Number

open TraceWeave.Text

/-- The choices that a format of doubles makes. -/
structure Style where
  /-- Which of two equally near digit strings is written. -/
  tie : Tie
  /-- The lowest place of a first digit that is still written out. -/
  lowest : Int
  /-- The first place that is written with a power of ten again. -/
  limit : Int
  /-- The least number of digits of the power of ten. -/
  exponentWidth : Nat
  nan : List Char
  infinity : List Char
  negativeInfinity : List Char

namespace Style

/-- Shown values: `nan`, `inf`, `-inf`, and `1e+16` or `1e-05` outside `0.0001` to `10^16`. -/
def display : Style where
  tie := .up
  lowest := -4
  limit := 16
  exponentWidth := 2
  nan := "nan".toList
  infinity := "inf".toList
  negativeInfinity := "-inf".toList

/-- JSON text: `null` for what is not a number, and `1e+16` or `1e-6` outside `0.00001` to
`10^16`. -/
def json : Style where
  tie := .toEven
  lowest := -5
  limit := 16
  exponentWidth := 1
  nan := "null".toList
  infinity := "null".toList
  negativeInfinity := "null".toList

/-- Digits written out around the point, with at least one digit on either side of it. -/
def positional (digits : List Char) (place : Int) : List Char :=
  if place < 0 then
    "0.".toList ++ List.replicate (-place - 1).toNat '0' ++ digits
  else
    let whole := place.toNat + 1
    let fraction := digits.drop whole
    digits.take whole ++ List.replicate (whole - digits.length) '0' ++
      '.' :: (if fraction.isEmpty then ['0'] else fraction)

/-- One digit before the point, which stands only if digits follow, and a power of ten that
always has a sign. -/
def scientific (width : Nat) (digits : List Char) (place : Int) : List Char :=
  let mantissa := match digits with
    | [] => []
    | [d] => [d]
    | d :: rest => d :: '.' :: rest
  mantissa ++ 'e' :: (if place < 0 then '-' else '+') :: Numeral.padded width place.natAbs

/-- A decimal without the zeros at its end. -/
def significant (d : Decimal) : List Char :=
  ((Numeral.ofNat d.digits).reverse.dropWhile (· == '0')).reverse

/-- A finite magnitude as text. -/
def writeMagnitude (style : Style) (magnitude : Nat) : List Char :=
  if magnitude = 0 then "0.0".toList
  else
    let d := Decimal.shortest style.tie magnitude
    let place := d.exponent + (Numeral.ofNat d.digits).length - 1
    if style.lowest ≤ place ∧ place < style.limit then positional (significant d) place
    else scientific style.exponentWidth (significant d) place

/-- A double as text. -/
def write (style : Style) (x : Binary64) : List Char :=
  if x.isNaN then style.nan
  else if x.isInfinite then if x.isNegative then style.negativeInfinity else style.infinity
  else if x.isNegative then '-' :: style.writeMagnitude x.magnitude
  else style.writeMagnitude x.magnitude

end Style

/-- A finite double that is not negative, with a fixed number of places. -/
def fixedPlaces (places : Nat) (x : Binary64) : List Char :=
  let unit := Nat.pow 10 places
  let n := roundDiv .toEven (Binary64.numerator x.magnitude * unit)
    (Binary64.denominator x.magnitude)
  Numeral.ofNat (n / unit) ++
    (if places = 0 then [] else '.' :: Numeral.padded places (n % unit))

end TraceWeave.Number
