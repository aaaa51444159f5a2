import TraceWeave.Query.Clause
import TraceWeave.Query.Pattern
import TraceWeave.Query.Target
import TraceWeave.Query.Window

/-!
# Answering a query

A snapshot is cut down in this order: spans that started before the window go, and traces that
lose all their spans; then traces for which some clause does not hold; then attributes that no
pattern selects, and traces that are left without any attribute. Of what remains the target and
the limit take their share.

Keys that occur nowhere in the snapshot are told apart from missing data: a clause with such a
key is refused, and a pattern that selects no key is reported. If no pattern selects a key, the
patterns do not count.

* `execute_nil`: an empty snapshot has an empty answer, whatever is asked.
-/

namespace TraceWeave.Query

/-- All that can be asked of a snapshot. -/
structure Options where
  target : Target := .last
  patterns : List Pattern := []
  clauses : List Clause := []
  window : Option Window := none
  limit : Option Nat := none
deriving DecidableEq, Repr

/-- A report of patterns that select no key. -/
structure Warning where
  unmatched : List Pattern
  /-- No pattern selects a key, so the traces are not filtered. -/
  unfiltered : Bool
deriving DecidableEq, Repr

def Warning.message (w : Warning) : String :=
  "Filter key(s) not found: " ++ ", ".intercalate (w.unmatched.map (·.text)) ++ "." ++
    if w.unfiltered then " Returning unfiltered traces." else ""

/-- The answer to a query. -/
structure Outcome where
  traces : List TraceGroup
  warning : Option Warning
deriving DecidableEq, Repr

/-- The keys of all attributes of a snapshot. -/
def attributeKeys (snapshot : List TraceGroup) : List String :=
  snapshot.flatMap TraceGroup.attributeKeys

/-! ## Steps -/

/-- The trace with the spans that started in time, if there are any. -/
def keepRecent (cutoff : Option Nat) (trace : TraceGroup) : Option TraceGroup :=
  let spans := trace.spans.filter fun s => cutoff.all (· ≤ s.start.toNat)
  if spans.isEmpty then none else some { trace with spans := spans }

/-- The span with the attributes that some pattern selects. -/
def keepMatching (patterns : List Pattern) (s : Span) : Span :=
  { s with attributes := s.attributes.filter fun a => patterns.any (·.selects a.key) }

/-- The trace with the attributes that some pattern selects, if there are any. -/
def keepSelected (patterns : List Pattern) (trace : TraceGroup) : Option TraceGroup :=
  if patterns.isEmpty then some trace
  else
    let spans := trace.spans.map (keepMatching patterns)
    if spans.all (·.attributes.isEmpty) then none else some { trace with spans := spans }

/-- One trace, cut down by window, clauses and patterns. -/
def keep (cutoff : Option Nat) (clauses : List Clause) (patterns : List Pattern)
    (trace : TraceGroup) : Option TraceGroup := do
  let trace ← keepRecent cutoff trace
  if clauses.all (·.holds trace) then keepSelected patterns trace else none

/-- The share of a target. -/
def Target.choose : Target → List TraceGroup → List TraceGroup
  | .last, traces => traces.take 1
  | .any, traces => traces
  | target, traces => traces.filter (target.selects ·.key.text)

/-! ## The whole -/

/-- The keys of clauses that occur nowhere. -/
def unknownKeys (snapshot : List TraceGroup) (clauses : List Clause) : List String :=
  let keys := attributeKeys snapshot
  (clauses.map (·.key)).filter (!keys.contains ·)

/-- The patterns that select no key. -/
def unmatchedPatterns (snapshot : List TraceGroup) (patterns : List Pattern) : List Pattern :=
  let keys := attributeKeys snapshot
  patterns.filter fun p => !keys.any p.selects

/-- Answers a query. -/
def execute (snapshot : List TraceGroup) (options : Options) (now : UInt64) :
    Except Fault Outcome :=
  if snapshot.isEmpty then .ok ⟨[], none⟩
  else
    let unknown := unknownKeys snapshot options.clauses
    if !unknown.isEmpty then .error (.unknownKeys unknown)
    else
      let unmatched := unmatchedPatterns snapshot options.patterns
      let unfiltered := unmatched.length == options.patterns.length
      let patterns := if unfiltered then [] else options.patterns
      let cutoff := options.window.map (·.cutoff now)
      let traces := snapshot.filterMap (keep cutoff options.clauses patterns)
      let chosen := options.target.choose traces
      .ok {
        traces := options.limit.elim chosen chosen.take
        warning := if unmatched.isEmpty then none else some ⟨unmatched, unfiltered⟩
      }

theorem execute_nil (options : Options) (now : UInt64) :
    execute [] options now = .ok ⟨[], none⟩ := rfl

end TraceWeave.Query
