/-!
# Bytes as hexadecimal text

Each byte is written as two lower-case digits.

* `length_ofBytes`: the text is twice as long as the bytes;
* `ofBytes_injective`: different bytes have different texts.
-/

namespace TraceWeave.Text.Hex

/-- The digit of a value below sixteen. -/
def digit (n : Nat) : Char :=
  Char.ofNat (if n < 10 then 0x30 + n else 0x57 + n)

/-- The value of a digit in either case. -/
def value? (c : Char) : Option Nat :=
  if '0' ≤ c ∧ c ≤ '9' then some (c.toNat - 0x30)
  else if 'a' ≤ c ∧ c ≤ 'f' then some (c.toNat - 0x57)
  else if 'A' ≤ c ∧ c ≤ 'F' then some (c.toNat - 0x37)
  else none

/-- Two digits for each byte. -/
def ofBytes (bytes : List UInt8) : List Char :=
  bytes.flatMap fun b => [digit (b.toNat / 16), digit (b.toNat % 16)]

/-- Reads what `ofBytes` writes, in either case. -/
def toBytes? : List Char → Option (List UInt8)
  | [] => some []
  | hi :: lo :: rest => do
    let h ← value? hi
    let l ← value? lo
    return UInt8.ofNat (16 * h + l) :: (← toBytes? rest)
  | [_] => none

@[simp] theorem length_ofBytes (bytes : List UInt8) :
    (ofBytes bytes).length = 2 * bytes.length := by
  induction bytes with
  | nil => rfl
  | cons b bytes ih => simp only [ofBytes, List.flatMap_cons] at ih ⊢; simp [ih]; omega

theorem value?_digit : ∀ n, n < 16 → value? (digit n) = some n := by
  decide

theorem toBytes?_ofBytes (bytes : List UInt8) : toBytes? (ofBytes bytes) = some bytes := by
  induction bytes with
  | nil => rfl
  | cons b bytes ih =>
    have hb : b.toNat < 256 := b.toNat_lt_size
    have hi := value?_digit (b.toNat / 16) (by omega)
    have lo := value?_digit (b.toNat % 16) (by omega)
    have hsum : 16 * (b.toNat / 16) + b.toNat % 16 = b.toNat := by omega
    simp only [ofBytes, List.flatMap_cons] at ih ⊢
    simp only [List.cons_append, List.nil_append, toBytes?, hi, lo, ih, hsum,
      Option.bind_eq_bind, Option.bind_some, UInt8.ofNat_toNat]
    rfl

theorem ofBytes_injective {a b : List UInt8} (h : ofBytes a = ofBytes b) : a = b := by
  have := congrArg toBytes? h
  simpa [toBytes?_ofBytes] using this

end TraceWeave.Text.Hex
