import TraceWeave.Query.Fault
import TraceWeave.Text.Ascii
import TraceWeave.Text.Blank
import TraceWeave.Text.Utf8

/-!
# Targets

Which of the traces that pass the filters are wanted: the one touched last, all of them, or those
with an identifier, which is given in full or by its first eight digits. Identifiers compare
without regard to case.
-/

namespace TraceWeave.Query

open Text

/-- The traces that are wanted. -/
inductive Target
  | last
  | any
  /-- The trace with this key. -/
  | exact (id : String)
  /-- The traces whose keys start so. -/
  | short (id : String)
deriving DecidableEq, Repr

namespace Target

/-- A key is one of those wanted. Of all traces, `last` then takes the first. -/
def selects : Target → String → Bool
  | last, _ | any, _ => true
  | exact id, key => sameLetters key.toList id.toList
  | short id, key =>
    match splitAtByte? (byteLength id.toList) key.toList with
    | some (front, _) => sameLetters front id.toList
    | none => false

def display : Target → String
  | last => "last"
  | any => "any"
  | exact id | short id => id

/-- Hexadecimal digits that are not all zero. -/
def isId (cs : List Char) : Bool :=
  cs.all isHexDigit && !cs.all (· == '0')

/-- The target that a token names. Without a token, asking for a list, a window or a limit asks
for all traces, and otherwise the last one is meant. -/
def resolve (token : Option String) (list window limit : Bool) : Except Fault Target :=
  let word := lower (trim (token.getD "").toList)
  if word.isEmpty then .ok (if list || window || limit then any else last)
  else if word = "last".toList then .ok last
  else if word = "any".toList then .ok any
  else if list then .error .targetWithList
  else if word.length = 8 then
    if isId word then .ok (short (String.ofList word)) else .error .malformedShortId
  else if word.length = 32 then
    if isId word then .ok (exact (String.ofList word)) else .error .malformedId
  else .error .idLength

end Target

end TraceWeave.Query
