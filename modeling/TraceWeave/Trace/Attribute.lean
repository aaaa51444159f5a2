import TraceWeave.Number.Style

/-!
# Attributes

A span carries attributes: keys with a text, a whole number, a double or a truth value. The same
key may stand on a span more than once.
-/

namespace TraceWeave

open Text

/-- The value of an attribute. -/
inductive AttributeValue
  | string (s : String)
  | int (i : Int64)
  | double (x : Binary64)
  | bool (b : Bool)
deriving DecidableEq, Repr

/-- The form in which values are shown and compared with filters. -/
def AttributeValue.display : AttributeValue → String
  | .string s => s
  | .int i => String.ofList (Numeral.ofInt i.toInt)
  | .double x => String.ofList (Number.Style.display.write x)
  | .bool true => "True"
  | .bool false => "False"

/-- A key with its value. -/
structure Attribute where
  key : String
  value : AttributeValue
deriving DecidableEq, Repr

end TraceWeave
