/-!
# Arguments that are refused

Why a command line does not lead to a command. Asking for help or for the version is among the
reasons.
-/

namespace TraceWeave.CommandLine

/-- Why a command line is not carried out. -/
inductive Usage
  | unknownArgument
  /-- A value that is no number of the range asked for. -/
  | numberInvalid
  /-- A missing value, or one that is not among those allowed. -/
  | valueInvalid
  /-- An argument that may stand only once, or not with a subcommand. -/
  | conflict
  /-- A value for a switch that takes none. -/
  | valueUnexpected
  | unknownSubcommand
  | help
  | version
deriving DecidableEq, Repr

namespace Usage

/-- What is written about it. -/
def message : Usage → String
  | unknownArgument => "error: unknown argument"
  | numberInvalid => "error: invalid number"
  | valueInvalid => "error: invalid or missing value"
  | conflict => "error: an argument cannot be used here"
  | valueUnexpected => "error: unexpected value"
  | unknownSubcommand => "error: unknown subcommand"
  | help => "Usage: spanlink [OPTIONS] [TARGET]\n       spanlink listen [OPTIONS]\n" ++
      "       spanlink show [OPTIONS] [TARGET]"
  | version => "spanlink 0.1.0"

/-- The text was asked for, so giving it is no error. -/
def isAnswer : Usage → Bool
  | help | version => true
  | _ => false

end Usage

end TraceWeave.CommandLine
