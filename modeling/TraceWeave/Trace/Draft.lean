import TraceWeave.Trace.Span

/-!
# Span drafts

What is known about a span before it is checked. Checking looks at the trace identifier, then
whether there is a span identifier, then at the parent, and at the span identifier last.

* `idOf_eq_unassigned`: only a span with a parent may go without an identifier.
-/

namespace TraceWeave

/-- The parts of a span as they were given. -/
structure SpanDraft where
  traceId : Option String := none
  id : Option String := none
  /-- An empty text stands for no parent. -/
  parent : Option String := none
  name : String := ""
  service : Option String := none
  start : UInt64 := 0
  finish : UInt64 := 0
  attributes : List Attribute := []

namespace SpanDraft

/-- The draft with one more attribute behind those that it has. -/
def withAttribute (d : SpanDraft) (key : String) (value : AttributeValue) : SpanDraft :=
  { d with attributes := d.attributes ++ [⟨key, value⟩] }

/-- The parent that a text names. -/
def parentOf : Option String → Except SpanFault (Option SpanId)
  | none => .ok none
  | some s => if s.isEmpty then .ok none else (SpanId.ofText s).map some

/-- The identifier that a text names, which may be empty only on a span with a parent: a root
without an identifier could never be referred to. -/
def idOf (parent : Option SpanId) (s : String) : Except SpanFault SpanId :=
  if s.isEmpty && parent.isSome then .ok .unassigned else SpanId.ofText s

/-- The span, if its parts are complete and well formed. -/
def build (d : SpanDraft) : Except SpanFault Span := do
  let traceText ← match d.traceId with
    | some s => pure s
    | none => throw .traceIdMissing
  let traceId ← TraceId.ofText traceText
  let idText ← match d.id with
    | some s => pure s
    | none => throw .spanIdMissing
  let parent ← parentOf d.parent
  let id ← idOf parent idText
  return {
    wireTraceId := traceId
    id := id
    parent := parent
    name := d.name
    start := d.start
    finish := d.finish
    service := d.service.getD "unknown"
    attributes := d.attributes
  }

theorem idOf_eq_unassigned {parent : Option SpanId} {s : String}
    (h : idOf parent s = .ok .unassigned) : parent.isSome = true := by
  unfold idOf at h
  split at h
  · simp_all
  · obtain ⟨hne, -, heq⟩ := SpanId.ofText_eq_ok_iff.1 h
    have hs : s = "" := by simpa [SpanId.unassigned] using (congrArg SpanId.text heq).symm
    simp [hs] at hne

end SpanDraft

end TraceWeave
