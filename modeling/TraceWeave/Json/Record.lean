import TraceWeave.Json.Number

/-!
# Reading records

A record with declared fields is read from an object or from an array. In an object the fields
stand in any order, other members are skipped, and a declared field may stand only once. In an
array the fields stand in declared order and only trailing ones may be missing.

* `fields?_record`: the members of an object that declares them come back in declared order.
-/

namespace TraceWeave.Json

/-- The value of a field among the members of an object, if the field stands there at most once. -/
def field? (members : List (String × Json)) (name : String) : Option (Option Json) :=
  match members.filter (·.1 == name) with
  | [] => some none
  | [(_, value)] => some (some value)
  | _ => none

/-- The members of an object, if all their keys are texts. -/
def keyed? : List (Option String × Json) → Option (List (String × Json))
  | [] => some []
  | (key, value) :: rest => do
    let key ← key
    return (key, value) :: (← keyed? rest)

/-- The values of the declared fields, in declared order; a missing field is `none`. -/
def fields? (names : List String) : Json → Option (List (Option Json))
  | .object members => do
    let members ← keyed? members
    names.mapM (field? members)
  | .array items =>
    if items.length ≤ names.length then
      some (items.map some ++ List.replicate (names.length - items.length) none)
    else none
  | _ => none

/-- A field that has to be there. -/
def required {α : Type} (read : Json → Option α) (field : Option Json) : Option α :=
  field.bind read

/-- A field that has a value when it is missing. -/
def defaulted {α : Type} (value : α) (read : Json → Option α) : Option Json → Option α
  | none => some value
  | some j => read j

/-! ## Plain values -/

def text? : Json → Option String
  | .string text => text
  | _ => none

def bool? : Json → Option Bool
  | .bool b => some b
  | _ => none

def double? : Json → Option Binary64
  | .number literal => toDouble? literal
  | _ => none

/-- An unsigned word, as a number or as text. The empty text is zero. -/
def unsignedWord? : Json → Option UInt64
  | .number literal => (toUnsigned? literal).map UInt64.ofNat
  | .string (some s) =>
    if s.isEmpty then some 0
    else (Text.Numeral.unsigned? maxUnsigned s.toList).map UInt64.ofNat
  | _ => none

/-- A signed word, as a number or as text. -/
def signedWord? : Json → Option Int64
  | .number literal => (toSigned? literal).map Int64.ofInt
  | .string (some s) => (Text.Numeral.int64? s.toList).map Int64.ofInt
  | _ => none

/-- The items of an array, if all of them can be read. -/
def list? {α : Type} (read : Json → Option α) : Json → Option (List α)
  | .array items => items.mapM read
  | _ => none

@[simp] theorem keyed?_record (members : List (String × Json)) :
    keyed? (members.map fun (key, value) => (some key, value)) = some members := by
  induction members with
  | nil => rfl
  | cons m rest ih => simp [keyed?, ih]

theorem fields?_record (names : List String) (members : List (String × Json)) :
    fields? names (record members) = names.mapM (field? members) := by
  simp [fields?, record]

end TraceWeave.Json
