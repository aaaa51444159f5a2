import TraceWeave.Config.LogLevel
import TraceWeave.Duration
import TraceWeave.Listener.Endpoint
import TraceWeave.Store

/-!
# Settings

All that can be configured, with its defaults, and what settings have to be like to be used.

* `validate_eq_ok_iff`: which settings are valid.
-/

namespace TraceWeave.Config

open Text

/-- Settings of the listener. -/
structure Server where
  host : String := "0.0.0.0"
  port : UInt16 := 4317
  workerThreads : UInt64 := 4
  /-- How long calls may take to finish when the listener stops. -/
  shutdownGrace : Duration := .ofSeconds 2
  /-- Write a line for each span that comes in. -/
  echoSpans : Bool := true
deriving DecidableEq, Repr

/-- How much is kept. -/
structure Capacity where
  maxTraces : UInt64 := 50
  maxSpansPerTrace : UInt64 := 500
deriving DecidableEq, Repr

/-- How the listener is reached. -/
structure Client where
  host : String := "127.0.0.1"
  timeout : Duration := .ofSeconds 3
deriving DecidableEq, Repr

/-- All settings. -/
structure Settings where
  server : Server := {}
  store : Capacity := {}
  client : Client := {}
  logLevel : LogLevel := .info
  /-- Not part of the document. -/
  debug : Bool := false
deriving DecidableEq, Repr

namespace Settings

/-- Refuses settings that cannot be used, for the first reason found. -/
def validate (s : Settings) : Except Fault Unit :=
  if trimmed s.server.host = "" then .error .serverHostEmpty
  else if s.server.workerThreads = 0 then .error .workerThreadsZero
  else if s.store.maxTraces = 0 then .error .maxTracesZero
  else if s.store.maxSpansPerTrace = 0 then .error .maxSpansPerTraceZero
  else if trimmed s.client.host = "" then .error .clientHostEmpty
  else if s.client.timeout.isZero then .error .timeoutZero
  else .ok ()

/-- The level that is logged at. -/
def effectiveLevel (s : Settings) : LogLevel :=
  if s.debug then .debug else s.logLevel

/-- Where the listener is reached. -/
def endpoint (s : Settings) : String :=
  Listener.endpoint s.client.host s.server.port.toNat

/-- An empty store of the capacity asked for. -/
def newStore (s : Settings) : Store :=
  .new s.store.maxTraces.toNat s.store.maxSpansPerTrace.toNat

theorem validate_eq_ok_iff (s : Settings) :
    s.validate = .ok () ↔
      trimmed s.server.host ≠ "" ∧ s.server.workerThreads ≠ 0 ∧ s.store.maxTraces ≠ 0 ∧
        s.store.maxSpansPerTrace ≠ 0 ∧ trimmed s.client.host ≠ "" ∧
        s.client.timeout.isZero = false := by
  unfold validate
  split
  · simp_all
  · split
    · simp_all
    · split
      · simp_all
      · split
        · simp_all
        · split
          · simp_all
          · split <;> simp_all

end Settings

end TraceWeave.Config
