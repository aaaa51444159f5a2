import TraceWeave.Trace.Attribute
import TraceWeave.Trace.Id

/-!
# Spans

A span is one timed operation of a service. It names its parent by the parent's identifier and
carries the trace identifier under which it was sent; which trace it belongs to is decided by the
links between spans and not by that identifier.
-/

namespace TraceWeave

/-- A recorded operation. Times are nanoseconds since the start of 1970. -/
structure Span where
  wireTraceId : TraceId
  id : SpanId
  /-- The span that this one was started by; a root span has none. -/
  parent : Option SpanId
  name : String
  start : UInt64
  finish : UInt64
  service : String
  attributes : List Attribute
deriving DecidableEq, Repr

namespace Span

def isRoot (s : Span) : Bool :=
  s.parent.isNone

/-- The nanoseconds from start to finish; none if the finish is earlier. -/
def duration (s : Span) : Nat :=
  s.finish.toNat - s.start.toNat

/-- The value of the first attribute with a key. -/
def attribute? (s : Span) (key : String) : Option AttributeValue :=
  (s.attributes.find? (·.key == key)).map (·.value)

/-- Some attribute has the key and is shown as the value. -/
def hasAttribute (s : Span) (key value : String) : Bool :=
  s.attributes.any fun a => a.key == key && a.value.display == value

theorem hasAttribute_iff {s : Span} {key value : String} :
    s.hasAttribute key value = true ↔
      ∃ a ∈ s.attributes, a.key = key ∧ a.value.display = value := by
  simp [hasAttribute]

end Span

end TraceWeave
