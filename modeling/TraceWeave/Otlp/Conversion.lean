import TraceWeave.Otlp.Request
import TraceWeave.Trace.Span

/-!
# From exported spans to spans

Identifiers become hexadecimal text, attributes that are not scalars are left out, and the service
is the one that the resource names. A span that is not well formed is dropped on its own; the
others of its request are kept, in order.

* `length_kept_add_length_dropped`: every span that was sent is either kept or dropped.
-/

namespace TraceWeave.Otlp

/-- The name of the service that sent the spans of a resource. -/
def serviceName (resource : Option (List KeyValue)) : String :=
  ((resource.bind (·.find? (·.key == "service.name"))).bind (·.value.scalar?)).elim "unknown"
    AttributeValue.display

/-- The attributes that a span can carry. -/
def scalars (attributes : List KeyValue) : List Attribute :=
  attributes.filterMap fun a => a.value.scalar?.map (⟨a.key, ·⟩)

namespace ExportedSpan

/-- The parent. Some exporters write zeros where there is none. -/
def parentId (s : ExportedSpan) : Except SpanFault (Option SpanId) :=
  if s.parent.all (· == 0) then .ok none else (SpanId.ofBytes s.parent).map some

/-- The identifier, which only a span with a parent may lack. -/
def spanId (s : ExportedSpan) (parent : Option SpanId) : Except SpanFault SpanId :=
  if s.id.isEmpty then
    if parent.isSome then .ok .unassigned else .error .exportedRootWithoutId
  else SpanId.ofBytes s.id

/-- The span, if its identifiers are well formed. -/
def convert (s : ExportedSpan) (service : String) : Except SpanFault Span := do
  if s.traceId.isEmpty then throw .exportedTraceIdEmpty
  let traceId ← TraceId.ofBytes s.traceId
  let parent ← s.parentId
  let id ← s.spanId parent
  return {
    wireTraceId := traceId
    id := id
    parent := parent
    name := s.name
    start := s.start
    finish := s.finish
    service := service
    attributes := scalars s.attributes
  }

end ExportedSpan

/-- What keeps a span from being converted. -/
def faultOf : Except SpanFault Span → Option SpanFault
  | .ok _ => none
  | .error fault => some fault

/-- The conversions of one resource, in order, each with the service it belongs to. -/
def ResourceSpans.attempts (r : ResourceSpans) : List (String × Except SpanFault Span) :=
  let service := serviceName r.resource
  r.scopes.flatten.map fun s => (service, s.convert service)

namespace ExportRequest

/-- The conversions of a request, in order. -/
def attempts (request : ExportRequest) : List (String × Except SpanFault Span) :=
  request.flatMap ResourceSpans.attempts

/-- The spans that are kept. -/
def kept (request : ExportRequest) : List Span :=
  (attempts request).filterMap fun (_, result) => result.toOption

/-- The spans that are dropped: the service that sent each, and what is wrong with it. -/
def dropped (request : ExportRequest) : List (String × SpanFault) :=
  (attempts request).filterMap fun (service, result) =>
    (faultOf result).map (service, ·)

theorem length_kept_add_length_dropped (request : ExportRequest) :
    (kept request).length + (dropped request).length = (attempts request).length := by
  unfold kept dropped
  induction attempts request with
  | nil => rfl
  | cons attempt rest ih =>
    obtain ⟨service, result⟩ := attempt
    cases result <;> simp [Except.toOption, faultOf] at ih ⊢ <;> omega

end ExportRequest

end TraceWeave.Otlp
