import TraceWeave.CommandLine.Plan
import TraceWeave.Config.Folder

/-!
# The program

Joins the command line to the system it runs on. There is no transport here: calls do not get
through, so no traces are found, and a listener cannot be kept running.
-/

namespace TraceWeave

open CommandLine

/-- The environment variables that arguments may come from. -/
def readEnvironment : IO (String → Option String) := do
  let names := ["SPANLINK_CONFIG", "SPANLINK_DEBUG", "SPANLINK_TRACE_PORT"]
  let values ← names.mapM fun name => return (name, ← IO.getEnv name)
  return fun name => (values.lookup name).join

/-- Reads a file, or tells why it cannot be read. -/
def readFile (path : String) : IO (Except String String) :=
  try
    return .ok (← IO.FS.readFile path)
  catch
    | .noFileOrDirectory .. => return .error Config.Folder.Fault.missing.message
    | .inappropriateType _ 20 _ => return .error Config.Folder.Fault.isNoFolder.message
    | .inappropriateType _ 21 _ => return .error Config.Folder.Fault.isFolder.message
    | problem => return .error (toString problem)

/-- The file that is read if none is named. -/
def standardFile? : IO (Option String) := do
  let folder ← match ← IO.getEnv "XDG_CONFIG_HOME" with
    | some folder => pure (some folder)
    | none => pure ((← IO.getEnv "HOME").map (· ++ "/.config"))
  match folder with
  | none => return none
  | some folder => return (← readFile (folder ++ "/spanlink/config.yaml")).toOption

/-- Carries out a plan. -/
def carryOut (plan : Plan) : IO (Except Failure Unit) := do
  match plan, plan.output [] 0 with
  | .listen host session, _ => return .error (Listener.unreachable host session.port)
  | _, .error failure => return .error failure
  | _, .ok output =>
    IO.eprint output.warningText
    IO.print output.text
    return .ok ()

/-- Carries out a command. -/
def carryOutCommand (i : Invocation) : IO (Except Failure Unit) := do
  let named ← readFile (i.configPath.getD "")
  match i.settings (fun _ => named) (← standardFile?) with
  | .error fault => return .error fault.failure
  | .ok s =>
    match i.plan s with
    | .error failure => return .error failure
    | .ok plan => carryOut plan

end TraceWeave

open TraceWeave CommandLine

def main (arguments : List String) : IO UInt32 := do
  match Invocation.read (← readEnvironment) arguments with
  | .error usage =>
    if usage.isAnswer then
      IO.println usage.message
      return 0
    else
      IO.eprintln usage.message
      return 2
  | .ok invocation =>
    match ← carryOutCommand invocation with
    | .ok () => return 0
    | .error failure =>
      IO.eprintln ("Error: " ++ failure.message)
      return 1
