import TraceWeave.Config.Fault
import TraceWeave.Text.Ascii
import TraceWeave.Text.Blank

/-!
# Log levels

How much is logged. A level is named in lower case in documents; elsewhere case does not count.

* `ofName?_name`: every level is found by its name.
-/

namespace TraceWeave.Config

open Text

/-- A log level, the most talkative one first. -/
inductive LogLevel
  | trace
  | debug
  | info
  | warn
  | error
deriving DecidableEq, Repr

namespace LogLevel

def name : LogLevel → String
  | trace => "trace"
  | debug => "debug"
  | info => "info"
  | warn => "warn"
  | error => "error"

/-- The level with a name. -/
def ofName? (name : List Char) : Option LogLevel :=
  [trace, debug, info, warn, error].find? fun level => level.name.toList = name

/-- Reads a level as it is typed, in any case and with blanks around it. -/
def read (text : String) : Except Fault LogLevel :=
  let word := lower (trim text.toList)
  if word = "warning".toList then .ok warn
  else
    match ofName? word with
    | some level => .ok level
    | none => .error (.unknownLogLevel (String.ofList word))

theorem ofName?_name (level : LogLevel) : ofName? level.name.toList = some level := by
  cases level <;> decide

end LogLevel

end TraceWeave.Config
