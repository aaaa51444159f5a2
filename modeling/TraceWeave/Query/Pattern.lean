import TraceWeave.Query.Fault
import TraceWeave.Text.Blank
import TraceWeave.Text.Pieces

/-!
# Key patterns

A pattern selects attribute keys. A star in it stands for any run of characters, and without a
star it selects just the key that it spells.

Matching takes the parts between the stars in turn: the first part has to start the key, each
further part is taken where it first occurs in what is left, and the last part has to end it.
-/

namespace TraceWeave.Query

open Text

/-- A pattern, as it was written. -/
structure Pattern where
  text : String
deriving DecidableEq, Repr

/-- What follows the first occurrence of a word. -/
def afterFirst? (word : List Char) : List Char → Option (List Char)
  | [] => if word.isEmpty then some [] else none
  | c :: cs =>
    if word.isPrefixOf (c :: cs) then some ((c :: cs).drop word.length) else afterFirst? word cs

/-- The text holds the parts in order and apart, and ends with the last of them. -/
def endsThrough : List (List Char) → List Char → Bool
  | [], text => text.isEmpty
  | [last], text => last.isSuffixOf text
  | part :: parts, text =>
    match afterFirst? part text with
    | some rest => endsThrough parts rest
    | none => false

namespace Pattern

/-- The parts between the stars. -/
def parts (p : Pattern) : List (List Char) :=
  pieces '*' p.text.toList

/-- The pattern selects the key. -/
def selects (p : Pattern) (key : String) : Bool :=
  match p.parts with
  | [] | [_] => key == p.text
  | first :: parts =>
    first.isPrefixOf key.toList && endsThrough parts (key.toList.drop first.length)

/-- The patterns of one option: the tokens between commas, without the blanks around them. -/
def tokens (raw : String) : List String :=
  (pieces ',' raw.toList).map fun token => String.ofList (trim token)

/-- The patterns of a list of options. -/
def readAll (raw : List String) : Except Fault (List Pattern) :=
  let tokens := raw.flatMap tokens
  if tokens.any (·.isEmpty) then .error .emptyFilter else .ok (tokens.map Pattern.mk)

end Pattern

end TraceWeave.Query
