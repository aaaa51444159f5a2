import TraceWeave.Trace.Group
import TraceWeave.View.Attributes

/-!
# Trees

A trace as a tree of text: a heading, a branch for each span in the order of their starts, and
below it a leaf for each attribute shown.
-/

namespace TraceWeave.View

/-- How an item is tied to the trunk, and what stands before the lines below it. -/
structure Branch where
  tie : String
  below : String

/-- An item with others after it. -/
def Branch.inner : Branch := ⟨"├── ", "│   "⟩

/-- The last item. -/
def Branch.final : Branch := ⟨"└── ", "    "⟩

/-- Writes items one after another, telling the last one from the others. -/
def branches {α : Type} (write : Branch → α → String) : List α → String
  | [] => ""
  | [item] => write .final item
  | item :: rest => write .inner item ++ branches write rest

/-- Whole milliseconds, `12ms`. -/
def writeMillis (nanos : Nat) : String :=
  String.ofList (Number.fixedPlaces 0 (millis nanos)) ++ "ms"

/-- The value as shown; a status other than 200 is flagged. -/
def flagged (key value : String) : String :=
  if key = "http.status_code" ∧ value ≠ "200" then value ++ " ⚠️" else value

/-- The line of an attribute. -/
def leaf (below : String) (branch : Branch) : String × String → String
  | (key, value) => below ++ branch.tie ++ key ++ ": " ++ flagged key value ++ "\n"

/-- The lines of a span. -/
def spanLines (verbose : Bool) (start : Nat) (branch : Branch) (s : Span) : String :=
  branch.tie ++ writeMillis (s.start.toNat - start) ++ " " ++ s.service ++
    (if s.name.isEmpty then "" else " " ++ s.name) ++ "\n" ++
    branches (leaf branch.below) (shown verbose s)

/-- The spans in the order of their starts; those that start together keep their order. -/
def byStart (spans : List Span) : List Span :=
  spans.mergeSort fun a b => a.start ≤ b.start

/-- A trace as a tree. -/
def tree (verbose : Bool) (trace : TraceGroup) : String :=
  if trace.spans.isEmpty then "No spans found for this trace.\n"
  else
    let summary := trace.summary
    "\nTrace: " ++ trace.key.text ++ " (" ++ writeMillis (summary.finish - summary.start) ++
      " total)\n\n" ++ branches (spanLines verbose summary.start) (byStart trace.spans) ++ "\n"

end TraceWeave.View
