import TraceWeave.Config.Settings
import TraceWeave.Yaml.Record
import TraceWeave.Yaml.Written

/-!
# Settings as documents

Settings are written as a YAML document with a section for each group, and read from one. What is
not given keeps its default, and a document of blanks gives nothing.
-/

namespace TraceWeave.Config

open Text Yaml

/-! ## Writing -/

/-- A line of a section. -/
def entry (key : String) (value : List Char) : List Char :=
  "  ".toList ++ key.toList ++ ": ".toList ++ Written.value 4 value

/-- A section with its lines. -/
def group (name : String) (entries : List (List Char)) : List Char :=
  name.toList ++ ":\n".toList ++ entries.flatten

/-- A line with a number, which is never quoted. -/
def numberEntry (key : String) (n : Nat) : List Char :=
  "  ".toList ++ key.toList ++ ": ".toList ++ Numeral.ofNat n ++ ['\n']

/-- A line with a truth value, which is never quoted. -/
def switchEntry (key : String) (b : Bool) : List Char :=
  "  ".toList ++ key.toList ++ ": ".toList ++ (if b then "true" else "false").toList ++ ['\n']

/-- The document of the settings. -/
def Settings.write (s : Settings) : List Char :=
  group "server" [
    entry "host" s.server.host.toList,
    numberEntry "port" s.server.port.toNat,
    numberEntry "worker_threads" s.server.workerThreads.toNat,
    entry "shutdown_grace" s.server.shutdownGrace.write,
    switchEntry "echo_spans" s.server.echoSpans] ++
  group "store" [
    numberEntry "max_traces" s.store.maxTraces.toNat,
    numberEntry "max_spans_per_trace" s.store.maxSpansPerTrace.toNat] ++
  group "client" [
    entry "host" s.client.host.toList,
    entry "timeout" s.client.timeout.write] ++
  group "logging" [
    entry "level" s.logLevel.name.toList]

/-- The document as a text. -/
def Settings.toYaml (s : Settings) : String :=
  String.ofList s.write

/-! ## Reading -/

section Reading

variable (d : Document)

/-- A word of 64 bits. -/
def readCount? (node : Node) : Option UInt64 :=
  (d.unsigned? 0xFFFF_FFFF_FFFF_FFFF node).map UInt64.ofNat

def readPort? (node : Node) : Option UInt16 :=
  (d.unsigned? 0xFFFF node).map UInt16.ofNat

def readDuration? (node : Node) : Option Duration :=
  (d.text? node).bind fun text => Duration.read? text.toList

def readServer? (node : Node) : Option Server := do
  let initial : Server := {}
  match ← d.fields? ["host", "port", "worker_threads", "shutdown_grace", "echo_spans"] node with
  | [host, port, workerThreads, shutdownGrace, echoSpans] =>
    return {
      host := ← Document.defaulted initial.host d.text? host
      port := ← Document.defaulted initial.port (readPort? d) port
      workerThreads := ← Document.defaulted initial.workerThreads (readCount? d) workerThreads
      shutdownGrace := ← Document.defaulted initial.shutdownGrace (readDuration? d) shutdownGrace
      echoSpans := ← Document.defaulted initial.echoSpans d.bool? echoSpans
    }
  | _ => none

def readCapacity? (node : Node) : Option Capacity := do
  let initial : Capacity := {}
  match ← d.fields? ["max_traces", "max_spans_per_trace"] node with
  | [maxTraces, maxSpansPerTrace] =>
    return {
      maxTraces := ← Document.defaulted initial.maxTraces (readCount? d) maxTraces
      maxSpansPerTrace :=
        ← Document.defaulted initial.maxSpansPerTrace (readCount? d) maxSpansPerTrace
    }
  | _ => none

def readClient? (node : Node) : Option Client := do
  let initial : Client := {}
  match ← d.fields? ["host", "timeout"] node with
  | [host, timeout] =>
    return {
      host := ← Document.defaulted initial.host d.text? host
      timeout := ← Document.defaulted initial.timeout (readDuration? d) timeout
    }
  | _ => none

def readLogging? (node : Node) : Option LogLevel := do
  match ← d.fields? ["level"] node with
  | [level] =>
    Document.defaulted .info (fun node => (d.word? node).bind LogLevel.ofName?) level
  | _ => none

/-- The settings that a document describes. -/
def readSettings? : Option Settings := do
  match ← d.fields? ["server", "store", "client", "logging"] d.root with
  | [server, store, client, logging] =>
    return {
      server := ← Document.defaulted {} (readServer? d) server
      store := ← Document.defaulted {} (readCapacity? d) store
      client := ← Document.defaulted {} (readClient? d) client
      logLevel := ← Document.defaulted .info (readLogging? d) logging
    }
  | _ => none

end Reading

namespace Settings

/-- Reads settings, which need not be valid. -/
def ofYaml (text : String) : Except Fault Settings :=
  if trimmed text = "" then .ok {}
  else
    match (Document.ofText? text.toList).bind readSettings? with
    | some s => .ok s
    | none => .error .malformedDocument

/-- Reads settings that can be used. -/
def load (text : String) : Except Fault Settings := do
  let s ← ofYaml text
  s.validate
  return s

end Settings

end TraceWeave.Config
