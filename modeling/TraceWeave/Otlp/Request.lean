import TraceWeave.Trace.Attribute

/-!
# Export requests

Spans as exporters send them: identifiers as raw bytes, grouped by the resource that produced them
and by instrumentation scope, with attribute values of any kind.
-/

namespace TraceWeave.Otlp

/-- The value of an attribute as it is sent. -/
inductive AnyValue
  | scalar (value : AttributeValue)
  /-- Bytes, a list or a map. -/
  | composite
  | missing
deriving DecidableEq, Repr

/-- The value, if it is of a kind that spans can carry. -/
def AnyValue.scalar? : AnyValue → Option AttributeValue
  | .scalar value => some value
  | .composite | .missing => none

/-- An attribute as it is sent. -/
structure KeyValue where
  key : String
  value : AnyValue
deriving DecidableEq, Repr

/-- A span as it is sent. -/
structure ExportedSpan where
  traceId : List UInt8
  id : List UInt8
  /-- Zero bytes only, or none, stand for no parent. -/
  parent : List UInt8
  name : String := ""
  start : UInt64 := 0
  finish : UInt64 := 0
  attributes : List KeyValue := []
deriving DecidableEq, Repr

/-- The spans of one resource, by scope. -/
structure ResourceSpans where
  /-- The attributes of the resource, if one is named. -/
  resource : Option (List KeyValue)
  scopes : List (List ExportedSpan)
deriving DecidableEq, Repr

/-- All that is sent in one call. -/
abbrev ExportRequest := List ResourceSpans

end TraceWeave.Otlp
