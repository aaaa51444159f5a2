import TraceWeave.Text.Hex
import TraceWeave.Yaml.Source

/-!
# Tags

A tag says of what kind a node is. It is written in full between angle brackets, or as a handle
with a name behind it, and the handle is short for an address.

Each byte of a tag may be written as a percent sign with two digits, so a tag is a list of bytes:
they need not be the bytes of a text. Only as many bytes as the first one announces belong to a
character. A zero among the bytes ends the name that it stands in.
-/

namespace TraceWeave.Yaml

open Text

/-- The characters of handles, anchors and directives. -/
def isNameChar (c : Char) : Bool :=
  c.isAlphanum || c == '_' || c == '-'

namespace Tag

/-- The characters of tags; brackets and commas only stand in tags that are written in full. -/
def isTagChar (full : Bool) (c : Char) : Bool :=
  isNameChar c || [';', '/', '?', ':', '@', '&', '=', '+', '$', '.', '~', '*', '\'', '(', ')', '!',
    '%'].contains c || (full && [',', '[', ']'].contains c)

/-- The number of bytes that follow the first byte of a character. -/
def following? (first : UInt8) : Option Nat :=
  if first < 0x80 then some 0
  else if first < 0xC0 then none
  else if first < 0xE0 then some 1
  else if first < 0xF0 then some 2
  else if first < 0xF8 then some 3
  else none

/-- The bytes that the characters of a tag stand for, when some bytes of a character are still to
come. -/
def bytes? (missing : Nat) : List Char → Option (List UInt8)
  | [] => if missing = 0 then some [] else none
  | '%' :: high :: low :: cs => do
    let byte := UInt8.ofNat (16 * (← Hex.value? high) + (← Hex.value? low))
    let missing ←
      if missing = 0 then following? byte
      else if 0x80 ≤ byte && byte < 0xC0 then some (missing - 1)
      else none
    return byte :: (← bytes? missing cs)
  | c :: cs =>
    if c = '%' ∨ missing ≠ 0 then none
    else do return UInt8.ofNat c.toNat :: (← bytes? 0 cs)

/-- The bytes of a name, up to the first zero. -/
def name? (cs : List Char) : Option (List UInt8) :=
  (bytes? 0 cs).map (·.takeWhile (· != 0))

/-- Reads a name or an address of at least one character. -/
def nameThen? (full : Bool) (source : Source) : Option (List UInt8 × Source) := do
  let (cs, rest) := splitWhile (isTagChar full) source
  if cs.isEmpty then none else return (← name? cs, rest)

/-- Reads a handle, which begins with an exclamation mark and may end with one. -/
def handleThen (source : Source) : List Char × Source :=
  let (name, rest) := splitWhile isNameChar source.tail
  if atAny ['!'] rest then ('!' :: name ++ ['!'], rest.tail) else ('!' :: name, rest)

/-- The handle has exclamation marks at both ends. -/
def isClosed (handle : List Char) : Bool :=
  1 < handle.length && handle.getLast? == some '!'

/-- The tag that says nothing. -/
def mark : List UInt8 :=
  [0x21]

/-- Reads a tag from its exclamation mark on: handle and name. -/
def read? (flow : Bool) (source : Source) : Option (List Char × List UInt8 × Source) := do
  let (handle, name, rest) ←
    if atAny ['<'] source.tail then do
      let (name, rest) ← nameThen? true source.tail.tail
      if atAny ['>'] rest then some ([], name, rest.tail) else none
    else
      let (handle, rest) := handleThen source
      if isClosed handle then do
        let (name, rest) ← nameThen? false rest
        some (handle, name, rest)
      else do
        let (more, rest) := splitWhile (isTagChar false) rest
        let name ← name? (handle.tail ++ more)
        some (if name.isEmpty then ([], mark, rest) else (['!'], name, rest))
  if atBlank rest || (flow && atAny [','] rest) then some (handle, name, rest) else none

/-! ## Meaning -/

/-- The bytes of a text in which every character is a byte. -/
def ofText (text : String) : List UInt8 :=
  text.toList.map fun c => UInt8.ofNat c.toNat

/-- The tag of a kind that all documents know. -/
def common (kind : String) : List UInt8 :=
  ofText ("tag:yaml.org,2002:" ++ kind)

/-- The word that a document's own tag is, if it is a text. -/
def word? (tag : List UInt8) : Option (List Char) :=
  match tag with
  | 0x21 :: name =>
    let word := if name.isEmpty then tag else name
    (String.fromUTF8? ⟨word.toArray⟩).map String.toList
  | _ => none

end Tag

end TraceWeave.Yaml
