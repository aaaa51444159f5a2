/-!
# JSON values

A value keeps what a reader may still refuse or skip: a number stays the text it was written as,
members keep their order and their repeats, and a string whose escapes name half of a surrogate
pair is no sequence of characters but may stand where nobody reads it.
-/

namespace TraceWeave

/-- A JSON value. A string is `none` if its escapes name half of a surrogate pair. -/
inductive Json
  | null
  | bool (b : Bool)
  | number (literal : List Char)
  | string (text : Option String)
  | array (items : List Json)
  | object (members : List (Option String × Json))
deriving Repr

namespace Json

/-- The string with a text. -/
def text (s : String) : Json := .string (some s)

/-- The object with members in order. -/
def record (members : List (String × Json)) : Json :=
  .object (members.map fun (key, value) => (some key, value))

/-- The characters between the tokens of a JSON text. -/
def isSpace (c : Char) : Bool :=
  c == ' ' || c == '\t' || c == '\n' || c == '\r'

end Json

end TraceWeave
