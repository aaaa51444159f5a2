import TraceWeave.CommandLine.Matches
import TraceWeave.Query.Execute
import TraceWeave.View.Format

/-!
# Commands

What a command line asks for. The first argument may name a subcommand; without one, traces are
shown.
-/

namespace TraceWeave.CommandLine

/-- How traces are to be shown. -/
structure ShowArguments where
  target : Option String := none
  filters : List String := []
  clauses : List String := []
  list : Bool := false
  noInteractive : Bool := false
  limit : Option Int := none
  since : Option String := none
  json : Bool := false
  verbose : Bool := false
  host : Option String := none
  port : Option UInt16 := none
deriving DecidableEq, Repr

/-- How the listener is to run. -/
structure ListenArguments where
  host : Option String := none
  port : Option UInt16 := none
  quiet : Bool := false
deriving DecidableEq, Repr

/-- What is asked for. -/
inductive Command
  | listening (arguments : ListenArguments)
  | showing (arguments : ShowArguments)
  /-- Shows traces, without a subcommand. -/
  | bare (arguments : ShowArguments)
deriving DecidableEq, Repr

/-- A command line. -/
structure Invocation where
  configPath : Option String := none
  debug : Bool := false
  /-- Only look whether the settings are valid. -/
  checkConfig : Bool := false
  command : Command
deriving DecidableEq, Repr

/-! ## Reading -/

def ShowArguments.ofMatches (m : Matches) : ShowArguments where
  target := m.target
  filters := m.values .filter
  clauses := m.values .clause
  list := m.isOn .list
  noInteractive := m.isOn .noInteractive
  limit := (m.value? .limit).bind Parameter.number?
  since := m.value? .since
  json := m.isOn .json
  verbose := m.isOn .verbose
  host := m.value? .host
  port := (m.value? .port).bind Parameter.portNumber?

def ListenArguments.ofMatches (m : Matches) : ListenArguments where
  host := m.value? .host
  port := (m.value? .port).bind Parameter.portNumber?
  quiet := m.isOn .quiet

namespace Invocation

/-- A command with the parameters that all commands share. -/
def ofMatches (m : Matches) (command : Command) : Invocation where
  configPath := m.value? .config
  debug := m.isOn .debug
  checkConfig := m.isOn .checkConfig
  command := command

/-- The subcommands. -/
def subcommands : List String :=
  ["listen", "show", "help"]

/-- What is said about the subcommand that is named; there is help on subcommands only. -/
def helpOn : List String → Usage
  | [] => .help
  | [name] => if subcommands.contains name then .help else .unknownSubcommand
  | _ => .unknownSubcommand

/-- Reads a subcommand with its arguments. The environment has to be in order also for the
parameters outside it. -/
def readSubcommand (environment : String → Option String) (scope : Scope)
    (command : Matches → Command) (arguments : List String) : Except Usage Invocation := do
  let m ← Matches.read environment scope arguments
  discard (Matches.read environment .top [])
  return ofMatches m (command m)

/-- Reads a command line. -/
def read (environment : String → Option String) (arguments : List String) :
    Except Usage Invocation :=
  match arguments with
  | "help" :: names => .error (helpOn names)
  | "listen" :: rest => readSubcommand environment .listening (.listening ∘ .ofMatches) rest
  | "show" :: rest => readSubcommand environment .showing (.showing ∘ .ofMatches) rest
  | _ => do
    let m ← Matches.read environment .top arguments
    return ofMatches m (.bare (.ofMatches m))

end Invocation

/-! ## Showing -/

namespace ShowArguments

/-- The query that is asked for. A window that does not read is no window, but still asks for all
traces. -/
def options (a : ShowArguments) : Except Query.Fault Query.Options := do
  let patterns ← Query.Pattern.readAll a.filters
  let clauses ← Query.Clause.readAll a.clauses
  let limit ← match a.limit with
    | some n => if n < 0 then throw .negativeLimit else pure (some n.toNat)
    | none => pure none
  let target ← Query.Target.resolve a.target a.list a.since.isSome a.limit.isSome
  return {
    target := target
    patterns := patterns
    clauses := clauses
    window := a.since.bind Query.Window.read?
    limit := limit
  }

def format (a : ShowArguments) : View.Format :=
  .ofFlags a.json a.list

end ShowArguments

/-- What a command writes: its output, and warnings apart from it. -/
structure Output where
  text : String
  warnings : List String := []
deriving DecidableEq, Repr

/-- The lines of the warnings. -/
def Output.warningText (o : Output) : String :=
  String.join (o.warnings.map fun warning => "Warning: " ++ warning ++ "\n")

/-- Shows the traces of a snapshot. -/
def showTraces (a : ShowArguments) (options : Query.Options) (snapshot : List TraceGroup)
    (now : UInt64) : Except Query.Fault Output := do
  let outcome ← Query.execute snapshot options now
  return {
    text := View.render a.verbose outcome.traces a.format
    warnings := outcome.warning.toList.map (·.message)
  }

end TraceWeave.CommandLine
