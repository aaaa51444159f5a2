import TraceWeave.Trace.Id
import TraceWeave.Listener.Address

/-!
# Failures

What a request is refused with: the text of a cause, and the wording in which it is reported.
-/

namespace TraceWeave

/-- Why a request failed. -/
inductive Failure
  | config (text : String)
  | invalidSpan (text : String)
  /-- A question that cannot be answered; its text is reported as it stands. -/
  | query (text : String)
  /-- A listener whose address is taken. -/
  | bind (address : Listener.Address) (cause : String)
  | io (text : String)
  /-- A document that is not of the expected shape. -/
  | malformed
  /-- A listener that does not answer. -/
  | network (text : String)
deriving DecidableEq, Repr

namespace Failure

/-- The kinds of failures as they are logged. -/
def category : Failure → String
  | .config _ => "config"
  | .invalidSpan _ | .query _ => "validation"
  | .bind _ _ => "bind"
  | .io _ => "io"
  | .malformed => "serialization"
  | .network _ => "network"

/-- The report of a failure. -/
def message : Failure → String
  | .config text => "Configuration error: " ++ text
  | .invalidSpan text => "Invalid span data: " ++ text
  | .query text => text
  | .bind address cause =>
    let port := toString address.port
    "Cannot bind trace listener to " ++ address.display ++ ": " ++ cause ++ ". Port " ++ port ++
      " is probably already in use; find the process holding it (e.g. `lsof -i :" ++ port ++
      "`) and stop it, or run `spanlink listen --port <PORT>` on a free port"
  | .io text => "IO error: " ++ text
  | .malformed => "Serialization error: not a document of the expected shape"
  | .network text => "Network error: " ++ text

/-- A fault of a span, as a failure. -/
def ofSpanFault (fault : SpanFault) : Failure :=
  .invalidSpan fault.message

end Failure

end TraceWeave
