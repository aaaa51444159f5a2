import TraceWeave.Yaml.Node
import TraceWeave.Yaml.Plain

/-!
# Reading records

A record with declared fields is read from a mapping whose keys are texts. Other keys are skipped
with whatever they hold, and a declared field may stand only once. A blank stands for a record of
which no field is given.
-/

namespace TraceWeave.Yaml.Document

/-- The text of a key. -/
def keyText? (d : Document) (key : Node) : Option (List Char) :=
  match d.follow key with
  | .scalar _ _ text => some text
  | _ => none

/-- The value of a field, if the field stands at most once. -/
def field? (members : List (List Char × Node)) (name : String) : Option (Option Node) :=
  match members.filter (·.1 = name.toList) with
  | [] => some none
  | [(_, value)] => some (some value)
  | _ => none

/-- The values of the declared fields, in declared order; a missing field is `none`. -/
def fields? (d : Document) (names : List String) (node : Node) : Option (List (Option Node)) :=
  match d.follow node with
  | .mapping entries => do
    let members ← entries.mapM fun (key, value) => do return (← d.keyText? key, value)
    names.mapM (field? members)
  | .scalar _ .plain [] => some (names.map fun _ => none)
  | _ => none

/-- A field that keeps its value if it is not given. -/
def defaulted {α : Type} (value : α) (read : Node → Option α) : Option Node → Option α
  | none => some value
  | some node => read node

/-! ## Plain values -/

/-- A text, written in whatever way. -/
def text? (d : Document) (node : Node) : Option String :=
  match d.follow node with
  | .scalar _ _ text => some (String.ofList text)
  | _ => none

/-- A text that is not quoted. A literal block counts if its tag says what it is. -/
def unquoted? (d : Document) (kind : String) (node : Node) : Option (List Char) :=
  match d.follow node with
  | .scalar _ .plain text => some text
  | .scalar tag .literal text => if tag = some (Tag.common kind) then some text else none
  | _ => none

def bool? (d : Document) (node : Node) : Option Bool :=
  (d.unquoted? "bool" node).bind Plain.bool?

/-- A number up to a bound. -/
def unsigned? (d : Document) (bound : Nat) (node : Node) : Option Nat :=
  (d.unquoted? "int" node).bind (Plain.unsigned? bound)

/-- A word out of a list: a text, or a tag of this document's own with nothing behind it. -/
def word? (d : Document) (node : Node) : Option (List Char) :=
  match d.follow node with
  | .scalar tag style text =>
    match tag.bind Tag.word? with
    | some word =>
      if style = .plain ∧ (text.isEmpty ∨ Plain.isNull text) then some word else none
    | none => some text
  | _ => none

end TraceWeave.Yaml.Document
