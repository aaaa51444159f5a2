import TraceWeave.Trace.Group

/-!
# Console lines

The line that is written for a span when it comes in: when it started, the abbreviated
identifiers, the operation, and how long it took.
-/

namespace TraceWeave

open Text

/-- Seconds with up to three decimals and no zeros at the end. -/
def writeSeconds (nanos : Nat) : List Char :=
  let digits := Number.fixedPlaces 3 ((Binary64.ofNat nanos).divNat 1_000_000_000)
  ((digits.reverse.dropWhile (· == '0')).dropWhile (· == '.')).reverse

/-- `22:13:20.000, trace=0af76519, span=b7ad6b71, gateway GET /health (0.25s)` -/
def Span.line (s : Span) : String :=
  String.ofList (Clock.timeWithMillis s.start.toNat) ++ ", trace=" ++ s.wireTraceId.short ++
    ", span=" ++ s.id.short ++ ", " ++ s.service ++ " " ++ s.name ++ " (" ++
    String.ofList (writeSeconds s.duration) ++ "s)"

end TraceWeave
