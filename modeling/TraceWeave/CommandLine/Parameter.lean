import TraceWeave.CommandLine.Usage
import TraceWeave.Text.Numeral

/-!
# Parameters

The switches and options of the command line: how they are named, which of them take a value, how
often they may stand, which commands know them, and which environment variables stand in for them.

* `ofLong?_long`: a parameter that a command knows is found by its name.
-/

namespace TraceWeave.CommandLine

open Text

/-- A switch or an option. -/
inductive Parameter
  | config
  | debug
  | checkConfig
  | filter
  | clause
  | list
  | noInteractive
  | limit
  | since
  | json
  | verbose
  | host
  | port
  | quiet
  | help
  | version
deriving DecidableEq, Repr

namespace Parameter

/-- The name behind two hyphens. -/
def long : Parameter → String
  | config => "config"
  | debug => "debug"
  | checkConfig => "check-config"
  | filter => "filter"
  | clause => "where"
  | list => "list"
  | noInteractive => "no-interactive"
  | limit => "limit"
  | since => "since"
  | json => "json"
  | verbose => "verbose"
  | host => "host"
  | port => "port"
  | quiet => "quiet"
  | help => "help"
  | version => "version"

/-- The letter behind one hyphen. -/
def short? : Parameter → Option Char
  | config => some 'c'
  | debug => some 'd'
  | verbose => some 'v'
  | quiet => some 'q'
  | help => some 'h'
  | version => some 'V'
  | _ => none

/-- A value goes with it. -/
def takesValue : Parameter → Bool
  | config | filter | clause | limit | since | host | port => true
  | _ => false

/-- It may stand more than once. -/
def repeats : Parameter → Bool
  | filter | clause => true
  | _ => false

/-- Its value may look like a negative number. -/
def allowsNegative : Parameter → Bool
  | limit => true
  | _ => false

/-- The environment variable that stands in for it. -/
def environmentName? : Parameter → Option String
  | config => some "SPANLINK_CONFIG"
  | debug => some "SPANLINK_DEBUG"
  | port => some "SPANLINK_TRACE_PORT"
  | _ => none

/-- A whole number of 64 bits. -/
def number? (value : String) : Option Int :=
  Numeral.int64? value.toList

/-- A port number. -/
def portNumber? (value : String) : Option UInt16 :=
  ((number? value).filter fun n => 0 ≤ n ∧ n ≤ 0xFFFF).map fun n => UInt16.ofNat n.toNat

/-- Checks a value. Switches have values only in the environment. -/
def check (p : Parameter) (value : String) : Except Usage Unit :=
  match p with
  | port => if (portNumber? value).isSome then .ok () else .error .numberInvalid
  | limit => if (number? value).isSome then .ok () else .error .numberInvalid
  | config => if value.isEmpty then .error .valueInvalid else .ok ()
  | debug => if value = "true" ∨ value = "false" then .ok () else .error .valueInvalid
  | _ => .ok ()

end Parameter

/-- The part of the command line that parameters belong to. -/
inductive Scope
  /-- Without a subcommand. -/
  | top
  | listening
  | showing
deriving DecidableEq, Repr

namespace Scope

/-- The parameters that are known. Environment variables are looked at in this order. -/
def parameters : Scope → List Parameter
  | top => [.config, .debug, .checkConfig, .filter, .clause, .list, .noInteractive, .limit, .since,
      .json, .verbose, .host, .port, .help, .version]
  | listening => [.host, .port, .quiet, .config, .debug, .help]
  | showing => [.filter, .clause, .list, .noInteractive, .limit, .since, .json, .verbose, .host,
      .port, .config, .debug, .help]

/-- The parameter with a name. -/
def ofLong? (scope : Scope) (name : List Char) : Option Parameter :=
  scope.parameters.find? fun p => p.long.toList = name

/-- The parameter with a letter. -/
def ofShort? (scope : Scope) (letter : Char) : Option Parameter :=
  scope.parameters.find? fun p => p.short? = some letter

/-- A target may be named. -/
def takesTarget : Scope → Bool
  | top | showing => true
  | listening => false

/-- Why a word is refused for which there is no place: a second target may be meant as a
subcommand. -/
def excess : Scope → Usage
  | top => .conflict
  | listening | showing => .unknownArgument

theorem ofLong?_long {scope : Scope} {p : Parameter} (h : p ∈ scope.parameters) :
    scope.ofLong? p.long.toList = some p := by
  cases scope <;> cases p <;> first | (exact absurd h (by decide)) | decide

end Scope

end TraceWeave.CommandLine
