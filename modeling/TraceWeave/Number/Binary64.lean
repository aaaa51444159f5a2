import TraceWeave.Number.Rounding

/-!
# Double precision numbers

A double is its 64 bits: a sign, eleven bits of scale and 52 bits of fraction. All arithmetic
here is exact arithmetic on natural numbers followed by one rounding to the nearest double,
ties to even. A magnitude is the lower 63 bits; magnitudes are ordered as the numbers are, and
the bits of a magnitude are a count of the doubles below it, so a carry out of the fraction runs
into the scale by itself.
-/

namespace TraceWeave

/-- A double precision number, given by its bit pattern. -/
structure Binary64 where
  bits : UInt64
deriving DecidableEq, Repr

namespace Binary64

/-- The magnitude of infinity. Magnitudes above it are no numbers. -/
def infinityMagnitude : Nat := 0x7FF0_0000_0000_0000

/-- The sign bit. -/
def isNegative (x : Binary64) : Bool :=
  0x8000_0000_0000_0000 ≤ x.bits.toNat

/-- All bits but the sign. -/
def magnitude (x : Binary64) : Nat :=
  x.bits.toNat % 0x8000_0000_0000_0000

/-- The double with a sign and a magnitude. -/
def ofMagnitude (negative : Bool) (magnitude : Nat) : Binary64 :=
  ⟨UInt64.ofNat ((if negative then 0x8000_0000_0000_0000 else 0) +
    magnitude % 0x8000_0000_0000_0000)⟩

def isNaN (x : Binary64) : Bool :=
  infinityMagnitude < x.magnitude

def isInfinite (x : Binary64) : Bool :=
  x.magnitude == infinityMagnitude

def isFinite (x : Binary64) : Bool :=
  x.magnitude < infinityMagnitude

def isZero (x : Binary64) : Bool :=
  x.magnitude == 0

/-- The quiet not-a-number. -/
def nan : Binary64 := ofMagnitude false (0x7FF8_0000_0000_0000)

def infinity (negative : Bool) : Binary64 :=
  ofMagnitude negative infinityMagnitude

def zero (negative : Bool) : Binary64 :=
  ofMagnitude negative 0

/-! ## The value of a magnitude

A finite magnitude stands for `significand * 2 ^ (scale - 1075)`. -/

/-- The scale: one for the smallest numbers, else the stored exponent. -/
def scale (magnitude : Nat) : Nat :=
  max 1 (magnitude / 0x10_0000_0000_0000)

/-- The digits, with the leading one that only the smallest numbers lack. -/
def significand (magnitude : Nat) : Nat :=
  magnitude - (scale magnitude - 1) * 0x10_0000_0000_0000

/-- The value as a fraction: what stands over the line. -/
def numerator (magnitude : Nat) : Nat :=
  significand magnitude * Nat.pow 2 (scale magnitude - 1075)

/-- The value as a fraction: what stands under the line. -/
def denominator (magnitude : Nat) : Nat :=
  Nat.pow 2 (1075 - scale magnitude)

/-! ## Rounding to a double -/

/-- The scale at which a positive fraction has a significand of 53 bits, or one if it is too
small for that. -/
def scaleOf (num den : Nat) : Nat :=
  let a := num.log2
  let b := den.log2
  let excess := if den * Nat.pow 2 a ≤ num * Nat.pow 2 b then 0 else 1
  max 1 (a + 1023 - b - excess)

/-- The magnitude nearest to a fraction. -/
def nearest (num den : Nat) : Nat :=
  if num = 0 then 0
  else
    let s := scaleOf num den
    let digits := Number.roundDiv .toEven (num * Nat.pow 2 (1075 - s)) (den * Nat.pow 2 (s - 1075))
    min ((s - 1) * 0x10_0000_0000_0000 + digits) infinityMagnitude

/-- The double nearest to a fraction with a sign. -/
def ofRatio (negative : Bool) (num den : Nat) : Binary64 :=
  ofMagnitude negative (nearest num den)

/-- The double nearest to a natural number. -/
def ofNat (n : Nat) : Binary64 :=
  ofRatio false n 1

/-- The quotient of a finite double by a whole number, rounded. -/
def divNat (x : Binary64) (n : Nat) : Binary64 :=
  ofRatio x.isNegative (numerator x.magnitude) (denominator x.magnitude * n)

end Binary64

end TraceWeave
