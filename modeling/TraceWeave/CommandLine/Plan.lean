import TraceWeave.CommandLine.Command
import TraceWeave.Config.Document
import TraceWeave.Listener.Session

/-!
# Plans

What a command amounts to under given settings, before anything is asked of a listener. A command
that is not in order fails here, so that no listener is asked in vain.
-/

namespace TraceWeave.CommandLine

open Config

/-- A query that cannot be answered, as a failure. -/
def orQueryFailure {α : Type} (r : Except Query.Fault α) : Except Failure α :=
  r.mapError fun fault => .query fault.message

/-! ## Settings -/

namespace Invocation

/-- The settings of a command: those of the file that is named, or else those of the standard file
if there is one. A file that is named has to be readable. -/
def settings (i : Invocation) (read : String → Except String String) (standard : Option String) :
    Except Config.Fault Settings := do
  let text ← match i.configPath with
    | some path => (read path).mapError (.unreadable path ·)
    | none => pure (standard.getD "")
  let s ← Settings.load text
  return { s with debug := i.debug }

end Invocation

/-! ## Plans -/

/-- What is to be done. -/
inductive Plan
  /-- Write an output. -/
  | report (output : Output)
  /-- Ask a listener for its traces and show them. -/
  | ask (host : String) (port : UInt16) (arguments : ShowArguments) (options : Query.Options)
  /-- Listen, starting with an empty store. -/
  | listen (host : String) (session : Listener.Session)
deriving DecidableEq, Repr

/-- The listener that is to run. -/
def ListenArguments.session (a : ListenArguments) (s : Settings) : Listener.Session where
  port := a.port.getD s.server.port
  echo := s.server.echoSpans && !a.quiet
  store := s.newStore

/-- The query that is to be asked. -/
def ShowArguments.plan (a : ShowArguments) (s : Settings) : Except Failure Plan := do
  let options ← orQueryFailure a.options
  return .ask (a.host.getD s.client.host) (a.port.getD s.server.port) a options

namespace Invocation

/-- What a command amounts to. -/
def plan (i : Invocation) (s : Settings) : Except Failure Plan :=
  if i.checkConfig then do
    s.validate.mapError (·.failure)
    return .report { text := "Configuration is valid!\n" ++ s.toYaml }
  else
    match i.command with
    | .listening a => .ok (.listen (a.host.getD s.server.host) (a.session s))
    | .showing a | .bare a => a.plan s

end Invocation

/-- The output of a plan, given the traces that a listener answers with. Listening writes nothing
by itself. -/
def Plan.output (traces : List TraceGroup) (now : UInt64) : Plan → Except Failure Output
  | .report output => .ok output
  | .ask _ _ arguments options => orQueryFailure (showTraces arguments options traces now)
  | .listen _ _ => .ok { text := "" }

end TraceWeave.CommandLine
