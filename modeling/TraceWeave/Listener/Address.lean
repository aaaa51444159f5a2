import TraceWeave.Text.Ascii
import TraceWeave.Text.Hex
import TraceWeave.Text.Numeral

/-!
# Socket addresses

An address of either protocol version with a port. The longer addresses are written with their
longest run of zero groups left out, the first of several, unless it is a single group; those that
stand for an address of the shorter kind end in its four numbers. Behind a percent sign a longer
address may have the number of the link that it belongs to; zero is no link.
-/

namespace TraceWeave.Listener

open Text

/-- Where a listener waits. -/
inductive Address
  | v4 (octets : List Nat) (port : Nat)
  | v6 (groups : List Nat) (link port : Nat)
deriving DecidableEq, Repr

namespace Address

def port : Address → Nat
  | .v4 _ port => port
  | .v6 _ _ port => port

/-- This machine, as the machine itself names it. -/
def loopback (port : Nat) : Address :=
  .v4 [127, 0, 0, 1] port

/-! ## Writing -/

def writeOctets (octets : List Nat) : List Char :=
  List.intercalate ['.'] (octets.map Numeral.ofNat)

/-- Hexadecimal digits without leading zeros. -/
def writeGroup (group : Nat) : List Char :=
  Nat.toDigits 16 group

def writeGroups (groups : List Nat) : List Char :=
  List.intercalate [':'] (groups.map writeGroup)

/-- The length of the run of zeros at the front. -/
def zerosAtFront (groups : List Nat) : Nat :=
  (groups.takeWhile (· == 0)).length

/-- Position and length of the longest run of zeros, the first of several. -/
def longestZeros (groups : List Nat) : Nat × Nat :=
  (List.range groups.length).foldl
    (fun best i =>
      let length := zerosAtFront (groups.drop i)
      if best.2 < length then (i, length) else best)
    (0, 0)

def writeLong (groups : List Nat) : List Char :=
  match groups with
  | [0, 0, 0, 0, 0, 0xFFFF, hi, lo] =>
    "::ffff:".toList ++ writeOctets [hi / 256, hi % 256, lo / 256, lo % 256]
  | _ =>
    let (position, length) := longestZeros groups
    if 1 < length then
      writeGroups (groups.take position) ++ [':', ':'] ++
        writeGroups (groups.drop (position + length))
    else writeGroups groups

/-- The address with its port, as it is reported. -/
def display : Address → String
  | .v4 octets port => String.ofList (writeOctets octets ++ ':' :: Numeral.ofNat port)
  | .v6 groups link port =>
    let suffix := if link = 0 then [] else '%' :: Numeral.ofNat link
    String.ofList ('[' :: writeLong groups ++ suffix ++ ']' :: ':' :: Numeral.ofNat port)

/-! ## Reading -/

def port? (cs : List Char) : Option Nat :=
  (Numeral.nat? cs).filter (· ≤ 0xFFFF)

/-- A number up to 255 without leading zeros. -/
def octet? (cs : List Char) : Option Nat :=
  (Numeral.nat? cs).filter fun n => n < 256 ∧ Numeral.ofNat n = cs

def octets? (cs : List Char) : Option (List Nat) :=
  ((cs.splitOn '.').mapM octet?).filter (·.length == 4)

/-- One to four hexadecimal digits. -/
def group? (cs : List Char) : Option Nat :=
  if cs.isEmpty || 4 < cs.length then none
  else (cs.mapM Hex.value?).map (·.foldl (fun n d => 16 * n + d) 0)

/-- Groups between colons. At the end of an address the last of them may be the four numbers of a
short address. -/
def groupList? (atEnd : Bool) (cs : List Char) : Option (List Nat) :=
  if cs.isEmpty then some []
  else
    let parts := cs.splitOn ':'
    match if atEnd then octets? (parts.getLast?.getD []) else none with
    | some [a, b, c, d] => do
      return (← parts.dropLast.mapM group?) ++ [256 * a + b, 256 * c + d]
    | _ => parts.mapM group?

/-- The text in front of the first pair of colons and the text behind it. -/
def splitAtGap? : List Char → Option (List Char × List Char)
  | ':' :: ':' :: rest => some ([], rest)
  | c :: rest => (splitAtGap? rest).map fun (front, back) => (c :: front, back)
  | [] => none

def groups? (cs : List Char) : Option (List Nat) :=
  match splitAtGap? cs with
  | some (front, back) => do
    let head ← groupList? false front
    let tail ← groupList? true back
    if head.length + tail.length ≤ 7 then
      some (head ++ List.replicate (8 - head.length - tail.length) 0 ++ tail)
    else none
  | none => (groupList? true cs).filter (·.length == 8)

/-- Reads the number of a link behind its percent sign, if there is one. -/
def link? : List Char → Option Nat
  | [] => some 0
  | _ :: digits => (Numeral.nat? digits).filter (· ≤ 0xFFFF_FFFF)

/-- Reads an address with its port. -/
def read? (cs : List Char) : Option Address :=
  match cs with
  | '[' :: rest => do
    let inside := rest.takeWhile (· != ']')
    let groups ← groups? (inside.takeWhile (· != '%'))
    let link ← link? (inside.dropWhile (· != '%'))
    match rest.dropWhile (· != ']') with
    | ']' :: ':' :: digits => return .v6 groups link (← port? digits)
    | _ => none
  | _ => do
    let octets := cs.takeWhile (· != ':')
    match cs.dropWhile (· != ':') with
    | ':' :: digits => return .v4 (← octets? octets) (← port? digits)
    | _ => none

end Address

end TraceWeave.Listener
