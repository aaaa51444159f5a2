import TraceWeave.Json.Printer
import TraceWeave.Json.Reader
import TraceWeave.Json.Record
import TraceWeave.Trace.Group

/-!
# Snapshots as documents

The JSON form of attributes, spans and groups. Whole numbers and times are written as text and
read as text or number; a span without a parent writes the empty text; doubles that are no
numbers write `null`, which is not read as a double.

Each kind has a writer to and a reader from JSON values; the readers refuse what is not of the
expected shape.
-/

namespace TraceWeave

open Json

/-! ## Writing -/

def AttributeValue.toJson : AttributeValue → Json
  | .string s => record [("stringValue", text s)]
  | .int i => record [("intValue", text (String.ofList (Text.Numeral.ofInt i.toInt)))]
  | .double x =>
    record [("doubleValue", if x.isFinite then .number (Number.Style.json.write x) else .null)]
  | .bool b => record [("boolValue", .bool b)]

def Attribute.toJson (a : Attribute) : Json :=
  record [("key", text a.key), ("value", a.value.toJson)]

/-- A time as text, as long words do not survive as numbers everywhere. -/
def timeToJson (t : UInt64) : Json :=
  text (String.ofList (Text.Numeral.ofNat t.toNat))

def Span.toJson (s : Span) : Json :=
  record [
    ("traceId", text s.wireTraceId.text),
    ("spanId", text s.id.text),
    ("parentSpanId", text (match s.parent with | some p => p.text | none => "")),
    ("name", text s.name),
    ("startTimeUnixNano", timeToJson s.start),
    ("endTimeUnixNano", timeToJson s.finish),
    ("service", text s.service),
    ("attributes", .array (s.attributes.map Attribute.toJson))]

def TraceGroup.toJson (g : TraceGroup) : Json :=
  record [("trace_id", text g.key.text), ("spans", .array (g.spans.map Span.toJson))]

/-! ## Reading -/

/-- A value is an object with one member, whose key tells the type. -/
def AttributeValue.ofJson? : Json → Option AttributeValue
  | .object [(some "stringValue", j)] => (text? j).map .string
  | .object [(some "intValue", j)] => (signedWord? j).map .int
  | .object [(some "doubleValue", j)] => (double? j).map .double
  | .object [(some "boolValue", j)] => (bool? j).map .bool
  | _ => none

def Attribute.ofJson? (j : Json) : Option Attribute := do
  match ← fields? ["key", "value"] j with
  | [key, value] => return ⟨← required text? key, ← required AttributeValue.ofJson? value⟩
  | _ => none

/-- A parent is a text that is not empty; `null` and the empty text stand for none. -/
def parentOfJson? : Json → Option (Option SpanId)
  | .null => some none
  | .string (some s) => some (if s.isEmpty then none else some ⟨s⟩)
  | _ => none

/-- The declared fields of a span, in order. -/
def Span.fieldNames : List String :=
  ["traceId", "spanId", "parentSpanId", "name", "startTimeUnixNano", "endTimeUnixNano", "service",
    "attributes"]

/-- A span. Its identifiers may have any length. -/
def Span.ofJson? (j : Json) : Option Span := do
  match ← fields? Span.fieldNames j with
  | [traceId, id, parent, name, start, finish, service, attributes] =>
    return {
      wireTraceId := ⟨← required text? traceId⟩
      id := ⟨← required text? id⟩
      parent := ← defaulted none parentOfJson? parent
      name := ← required text? name
      start := ← defaulted 0 unsignedWord? start
      finish := ← defaulted 0 unsignedWord? finish
      service := ← required text? service
      attributes := ← defaulted [] (list? Attribute.ofJson?) attributes
    }
  | _ => none

def TraceGroup.ofJson? (j : Json) : Option TraceGroup := do
  match ← fields? ["trace_id", "spans"] j with
  | [key, spans] =>
    return ⟨⟨← required text? key⟩, ← defaulted [] (list? Span.ofJson?) spans⟩
  | _ => none

namespace Snapshot

/-- The document that a listener answers with. -/
def toJson (groups : List TraceGroup) : Json :=
  record [("traces", .array (groups.map TraceGroup.toJson))]

def ofJson? (j : Json) : Option (List TraceGroup) := do
  match ← fields? ["traces"] j with
  | [traces] => defaulted [] (list? TraceGroup.ofJson?) traces
  | _ => none

/-- The text that a listener answers with. -/
def payload (groups : List TraceGroup) : String :=
  (toJson groups).compact

/-- Reads a payload. -/
def ofPayload? (s : String) : Option (List TraceGroup) :=
  (Json.parse s.toList).bind ofJson?

end Snapshot

end TraceWeave
