import TraceWeave.Json.Value
import TraceWeave.Text.Hex

/-!
# Writing JSON

One printer for two layouts: on one line without blanks, or with a line for each item and member,
indented by two spaces for each level.

A string escapes the quotation mark, the backslash and the characters below U+0020, and nothing
else.
-/

namespace TraceWeave.Json

open TraceWeave.Text

/-- What stands between tokens: before an item at a depth, and after the colon of a member. -/
structure Layout where
  lineBreak : Nat → List Char
  afterColon : List Char

namespace Layout

/-- Everything on one line, without blanks. -/
def compact : Layout where
  lineBreak _ := []
  afterColon := []

/-- A line for each item and member. -/
def pretty : Layout where
  lineBreak depth := '\n' :: List.replicate (2 * depth) ' '
  afterColon := [' ']

end Layout

/-- A character inside a string. -/
def escaped (c : Char) : List Char :=
  if c = '"' then ['\\', '"']
  else if c = '\\' then ['\\', '\\']
  else if c = '\x08' then ['\\', 'b']
  else if c = '\x0c' then ['\\', 'f']
  else if c = '\n' then ['\\', 'n']
  else if c = '\r' then ['\\', 'r']
  else if c = '\t' then ['\\', 't']
  else if c.toNat < 0x20 then
    ['\\', 'u', '0', '0', Hex.digit (c.toNat / 16), Hex.digit (c.toNat % 16)]
  else [c]

/-- A string with its quotation marks. Half of a surrogate pair can only be written by an escape. -/
def quoted : Option String → List Char
  | some s => '"' :: s.toList.flatMap escaped ++ ['"']
  | none => '"' :: "\\ud800".toList ++ ['"']

mutual

/-- A value whose items stand at a depth. -/
def write (layout : Layout) (depth : Nat) : Json → List Char
  | .null => "null".toList
  | .bool true => "true".toList
  | .bool false => "false".toList
  | .number literal => literal
  | .string text => quoted text
  | .array [] => ['[', ']']
  | .array (item :: items) =>
    '[' :: layout.lineBreak (depth + 1) ++ write layout (depth + 1) item ++
      writeItems layout depth items
  | .object [] => ['\x7b', '\x7d']
  | .object ((key, value) :: members) =>
    '\x7b' :: layout.lineBreak (depth + 1) ++ quoted key ++ ':' :: layout.afterColon ++
      write layout (depth + 1) value ++ writeMembers layout depth members

/-- The items behind the first, and the bracket that closes the array. -/
def writeItems (layout : Layout) (depth : Nat) : List Json → List Char
  | [] => layout.lineBreak depth ++ [']']
  | item :: items =>
    ',' :: layout.lineBreak (depth + 1) ++ write layout (depth + 1) item ++
      writeItems layout depth items

/-- The members behind the first, and the brace that closes the object. -/
def writeMembers (layout : Layout) (depth : Nat) : List (Option String × Json) → List Char
  | [] => layout.lineBreak depth ++ ['\x7d']
  | (key, value) :: members =>
    ',' :: layout.lineBreak (depth + 1) ++ quoted key ++ ':' :: layout.afterColon ++
      write layout (depth + 1) value ++ writeMembers layout depth members

end

/-- The value on one line. -/
def compact (j : Json) : String :=
  String.ofList (write .compact 0 j)

/-- The value with a line for each item and member. -/
def pretty (j : Json) : String :=
  String.ofList (write .pretty 0 j)

end TraceWeave.Json
