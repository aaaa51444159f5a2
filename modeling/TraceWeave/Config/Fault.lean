import TraceWeave.Failure

/-!
# Settings that are refused

What can be wrong with a configuration.
-/

namespace TraceWeave.Config

/-- Why a configuration is refused. -/
inductive Fault
  | serverHostEmpty
  | workerThreadsZero
  | maxTracesZero
  | maxSpansPerTraceZero
  | clientHostEmpty
  | timeoutZero
  | unknownLogLevel (name : String)
  /-- A document that does not describe settings. -/
  | malformedDocument
  /-- A file that was named but cannot be read. -/
  | unreadable (path cause : String)
deriving DecidableEq, Repr

/-- The wording of a refusal. -/
def Fault.message : Fault → String
  | .serverHostEmpty => "server.host must not be empty"
  | .workerThreadsZero => "server.worker_threads must be greater than 0"
  | .maxTracesZero => "store.max_traces must be greater than 0"
  | .maxSpansPerTraceZero => "store.max_spans_per_trace must be greater than 0"
  | .clientHostEmpty => "client.host must not be empty"
  | .timeoutZero => "client.timeout must be greater than 0"
  | .unknownLogLevel name => "Unknown log level: " ++ name
  | .malformedDocument => "Failed to parse YAML config"
  | .unreadable path cause => "Failed to read config file " ++ path ++ ": " ++ cause

/-- The refusal as a failure. -/
def Fault.failure (fault : Fault) : Failure :=
  .config fault.message

end TraceWeave.Config
