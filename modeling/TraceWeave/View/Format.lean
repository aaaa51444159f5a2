import TraceWeave.Trace.Document
import TraceWeave.View.Tree

/-!
# Formats

The forms in which traces are written: a tree of the first one, a list of abbreviated
identifiers, and documents with the traces or with their identifiers.
-/

namespace TraceWeave.View

/-- The form of an answer. -/
inductive Format
  | tree
  | list
  | json
  | ids
deriving DecidableEq, Repr

/-- The form that two switches ask for. -/
def Format.ofFlags : (json list : Bool) → Format
  | true, true => .ids
  | true, false => .json
  | false, true => .list
  | false, false => .tree

/-- The abbreviated identifiers, a line for each. -/
def idList (traces : List TraceGroup) : String :=
  if traces.isEmpty then "No trace IDs found.\n"
  else "\nTrace IDs:\n" ++ String.join (traces.map fun t => "  - " ++ t.key.short ++ "\n")

/-- The document with the traces. -/
def tracesDocument (traces : List TraceGroup) : String :=
  (Snapshot.toJson traces).pretty ++ "\n"

/-- The document with the identifiers of the traces. -/
def idsDocument (traces : List TraceGroup) : String :=
  (Json.record [("trace_ids", .array (traces.map fun t => Json.text t.key.text))]).pretty ++ "\n"

/-- Writes traces in a form. Of several traces the tree shows the first. -/
def render (verbose : Bool) (traces : List TraceGroup) : Format → String
  | .tree =>
    match traces with
    | trace :: _ => tree verbose trace
    | [] => "No traces found.\n"
  | .list => idList traces
  | .json => tracesDocument traces
  | .ids => idsDocument traces

end TraceWeave.View
