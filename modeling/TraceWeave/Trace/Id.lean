import TraceWeave.Text.Hex
import TraceWeave.Text.Utf8

/-!
# Identifiers

Trace and span identifiers are texts, usually hexadecimal digits. Those that a sender gives are
neither empty nor longer than the digits of sixteen and eight bytes. The empty span identifier
marks a span that has none of its own.

* `TraceId.ofText_eq_ok_iff`, `SpanId.ofText_eq_ok_iff`: which texts are accepted.
-/

namespace TraceWeave

open Text

/-- What can be wrong with a span that is about to be recorded. -/
inductive SpanFault
  | traceIdMissing
  | traceIdEmpty
  | traceIdTooLong (length : Nat)
  | spanIdMissing
  | spanIdEmpty
  | spanIdTooLong (length : Nat)
  /-- An exported span without a trace identifier. -/
  | exportedTraceIdEmpty
  /-- An exported span with neither an identifier nor a parent. -/
  | exportedRootWithoutId
deriving DecidableEq, Repr

/-- The wording of a fault. -/
def SpanFault.message : SpanFault → String
  | .traceIdMissing => "trace_id is required"
  | .traceIdEmpty => "TraceId cannot be empty"
  | .traceIdTooLong length =>
    "TraceId cannot exceed 32 characters, got " ++ toString length
  | .spanIdMissing => "span_id is required"
  | .spanIdEmpty => "SpanId cannot be empty"
  | .spanIdTooLong length =>
    "SpanId cannot exceed 16 characters, got " ++ toString length
  | .exportedTraceIdEmpty => "Invalid trace ID: empty"
  | .exportedRootWithoutId => "Invalid span ID: empty on a root span"

/-- The identifier of a trace. -/
structure TraceId where
  text : String
deriving DecidableEq, Repr

/-- The identifier of a span. -/
structure SpanId where
  text : String
deriving DecidableEq, Repr

namespace TraceId

/-- The identifier with a text of 1 to 32 bytes. -/
def ofText (s : String) : Except SpanFault TraceId :=
  if s.isEmpty then .error .traceIdEmpty
  else if 32 < s.utf8ByteSize then .error (.traceIdTooLong s.utf8ByteSize)
  else .ok ⟨s⟩

/-- The identifier of raw bytes. -/
def ofBytes (bytes : List UInt8) : Except SpanFault TraceId :=
  ofText (String.ofList (Hex.ofBytes bytes))

/-- The abbreviated form of listings. -/
def short (id : TraceId) : String :=
  String.ofList (abbreviation id.text.toList)

theorem ofText_eq_ok_iff {s : String} {id : TraceId} :
    ofText s = .ok id ↔ s.isEmpty = false ∧ s.utf8ByteSize ≤ 32 ∧ id = ⟨s⟩ := by
  unfold ofText
  by_cases hempty : s.isEmpty = true
  · simp [hempty]
  · by_cases hlong : 32 < s.utf8ByteSize
    · have : ¬ s.utf8ByteSize ≤ 32 := Nat.not_le.2 hlong
      simp only [hempty, hlong, this, if_true, if_false, false_and, and_false, reduceCtorEq,
        Bool.false_eq_true]
    · have : s.utf8ByteSize ≤ 32 := Nat.not_lt.1 hlong
      simp only [hempty, hlong, this, if_false, Except.ok.injEq, true_and, eq_comm,
        Bool.false_eq_true]

end TraceId

namespace SpanId

/-- The identifier with a text of 1 to 16 bytes. -/
def ofText (s : String) : Except SpanFault SpanId :=
  if s.isEmpty then .error .spanIdEmpty
  else if 16 < s.utf8ByteSize then .error (.spanIdTooLong s.utf8ByteSize)
  else .ok ⟨s⟩

/-- The identifier of raw bytes. -/
def ofBytes (bytes : List UInt8) : Except SpanFault SpanId :=
  ofText (String.ofList (Hex.ofBytes bytes))

/-- The mark of a span without an identifier. Such a span can follow its parent but nothing can
refer to it. -/
def unassigned : SpanId := ⟨""⟩

def isUnassigned (id : SpanId) : Bool :=
  id.text.isEmpty

/-- The abbreviated form of listings. -/
def short (id : SpanId) : String :=
  String.ofList (abbreviation id.text.toList)

theorem ofText_eq_ok_iff {s : String} {id : SpanId} :
    ofText s = .ok id ↔ s.isEmpty = false ∧ s.utf8ByteSize ≤ 16 ∧ id = ⟨s⟩ := by
  unfold ofText
  by_cases hempty : s.isEmpty = true
  · simp [hempty]
  · by_cases hlong : 16 < s.utf8ByteSize
    · have : ¬ s.utf8ByteSize ≤ 16 := Nat.not_le.2 hlong
      simp only [hempty, hlong, this, if_true, if_false, false_and, and_false, reduceCtorEq,
        Bool.false_eq_true]
    · have : s.utf8ByteSize ≤ 16 := Nat.not_lt.1 hlong
      simp only [hempty, hlong, this, if_false, Except.ok.injEq, true_and, eq_comm,
        Bool.false_eq_true]

end SpanId

end TraceWeave
