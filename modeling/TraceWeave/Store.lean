import TraceWeave.Grouping.Placement

/-!
# The trace store

The engine together with a count of what came in and what was asked for. Spans come in batches;
each batch is answered with a tally of what became of its spans.
-/

namespace TraceWeave

open Grouping

/-- What became of the spans of a batch. -/
structure Tally where
  retained : Nat := 0
  truncated : Nat := 0
  duplicates : Nat := 0
  unplaced : Nat := 0
  merges : Nat := 0
  evictions : Nat := 0
deriving DecidableEq, Repr

namespace Tally

/-- Adds one report. -/
def add (t : Tally) (r : Report) : Tally where
  retained := t.retained + if r.outcome = .retained then 1 else 0
  truncated := t.truncated + if r.outcome = .truncated then 1 else 0
  duplicates := t.duplicates + if r.outcome = .duplicate then 1 else 0
  unplaced := t.unplaced + if r.outcome = .unplaced then 1 else 0
  merges := t.merges + if r.mergedFrom.isSome then 1 else 0
  evictions := t.evictions + if r.evicted.isSome then 1 else 0

/-- The tally of a batch. -/
def ofReports (reports : List Report) : Tally :=
  reports.foldl add {}

/-- The spans that were recorded, whether kept or not. -/
def accepted (t : Tally) : Nat :=
  t.retained + t.truncated

end Tally

/-- The engine and the counts around it. -/
structure Store where
  engine : Engine
  batches : Nat := 0
  spansReceived : Nat := 0
  snapshots : Nat := 0
deriving DecidableEq, Repr

/-- What a store tells about itself. -/
structure Stats where
  groups : Nat
  limits : Limits
  batches : Nat
  spansReceived : Nat
  snapshots : Nat
  counters : Counters
deriving DecidableEq, Repr

namespace Store

/-- A store that holds so many groups of so many spans. -/
def new (groups spans : Nat) : Store where
  engine := .new groups spans

/-- Places spans, each under a trace identifier of its own. -/
def ingestPlaced (store : Store) (batch : List (TraceId × Span)) : Store × Tally :=
  let (engine, reports) := store.engine.run batch
  ({ store with
      engine := engine
      batches := store.batches + 1
      spansReceived := store.spansReceived + batch.length },
    .ofReports reports)

/-- Places a batch that was sent under one trace identifier. -/
def ingest (store : Store) (wire : TraceId) (spans : List Span) : Store × Tally :=
  store.ingestPlaced (spans.map fun s => (wire, s))

/-- Places a batch of spans under the trace identifiers that they carry. -/
def ingestSpans (store : Store) (spans : List Span) : Store × Tally :=
  store.ingestPlaced (spans.map fun s => (s.wireTraceId, s))

/-- A copy of the groups, which is counted. -/
def snapshot (store : Store) : Store × List TraceGroup :=
  ({ store with snapshots := store.snapshots + 1 }, store.engine.snapshot)

/-- The number of groups held. -/
def size (store : Store) : Nat :=
  store.engine.groups.length

def stats (store : Store) : Stats where
  groups := store.size
  limits := store.engine.limits
  batches := store.batches
  spansReceived := store.spansReceived
  snapshots := store.snapshots
  counters := store.engine.counters

end Store

end TraceWeave
