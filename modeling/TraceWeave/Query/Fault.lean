/-!
# Questions that cannot be answered

What can be wrong with the options of a query.
-/

namespace TraceWeave.Query

/-- Why a query is refused. -/
inductive Fault
  | emptyFilter
  /-- Clauses that do not read; all of them are named. -/
  | malformedClauses (texts : List String)
  | negativeLimit
  | targetWithList
  | malformedShortId
  | malformedId
  | idLength
  /-- Keys that no span of the snapshot carries, one for each clause. -/
  | unknownKeys (keys : List String)
deriving DecidableEq, Repr

/-- The wording of a refusal. -/
def Fault.message : Fault → String
  | .emptyFilter => "Filter contains empty tokens."
  | .malformedClauses texts =>
    "Invalid --where filter(s): " ++ ", ".intercalate texts ++ ". Use key=value."
  | .negativeLimit => "Limit must be greater than or equal to 0."
  | .targetWithList => "Target and --list cannot be used together."
  | .malformedShortId => "Short trace ID must be 8 hex characters."
  | .malformedId => "Trace ID must be 32 hex characters."
  | .idLength => "Trace ID must be 8 or 32 hex characters."
  | .unknownKeys keys => "Unknown --where key(s): " ++ ", ".intercalate keys

end TraceWeave.Query
