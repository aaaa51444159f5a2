import TraceWeave.Listener.Call
import TraceWeave.Otlp.Conversion
import TraceWeave.Store
import TraceWeave.Trace.Line

/-!
# Receiving exports

A request is answered with success whatever its spans are like. Those that are well formed go to
the store as one batch, unless there are none, and a line is written for each if that is wanted.
-/

namespace TraceWeave.Otlp

/-- What a sender is told of spans that were not taken. -/
structure PartialSuccess where
  rejected : Int64
  message : String
deriving DecidableEq, Repr

/-- What is sent back for a request. -/
structure Response where
  status : Listener.Status
  partialSuccess : Option PartialSuccess
deriving DecidableEq, Repr

/-- What receiving one request led to. -/
structure Reception where
  /-- The answer to the sender. -/
  response : Response
  /-- The lines written for the spans kept. -/
  lines : List String
  dropped : List (String × SpanFault)
  /-- The store's answer, if any span was left. -/
  tally : Option Tally
deriving DecidableEq, Repr

/-- Receives a request. Senders are not told of spans that were dropped. -/
def receive (store : Store) (echo : Bool) (request : ExportRequest) : Store × Reception :=
  let spans := ExportRequest.kept request
  let lines := if echo then spans.map Span.line else []
  let dropped := ExportRequest.dropped request
  let response := { status := .ok, partialSuccess := none }
  if spans.isEmpty then (store, ⟨response, lines, dropped, none⟩)
  else
    let (store, tally) := store.ingestSpans spans
    (store, ⟨response, lines, dropped, some tally⟩)

/-- Receives requests one after another. -/
def receiveAll (store : Store) (echo : Bool) : List ExportRequest → Store × List Reception
  | [] => (store, [])
  | request :: rest =>
    let (store, reception) := receive store echo request
    let (store, receptions) := receiveAll store echo rest
    (store, reception :: receptions)

end TraceWeave.Otlp
