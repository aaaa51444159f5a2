import TraceWeave.Grouping.Engine

/-!
# Placing spans

Where a span goes, and what follows from it.

A span with an identifier goes to the group of its parent, else to the group that waits for it,
else to the group of the trace identifier under which it was sent. A span without an identifier
follows its parent, and is dropped if the parent is not known.

* `place_unassigned`, `place_assigned`: the two cases;
* `fst_run`: a run leaves the engine that placing the spans one after another leaves;
* `run_append`: runs are put together from reports and states.
-/

namespace TraceWeave.Grouping.Engine

/-- The group that a span goes to. If that group was waiting for the span, it waits no longer. -/
def route (e : Engine) (wire : TraceId) (s : Span) : TraceId × Engine :=
  match s.parent.bind e.homes.find? with
  | some group => (group, e)
  | none =>
    match e.awaited.find? s.id with
    | some group => (group, { e with awaited := e.awaited.erase s.id })
    | none => (wire, e)

/-- Lets the group of a span wait for the span's parent, unless some group does so already. -/
def await (e : Engine) (parent : Option SpanId) (group : TraceId) : Engine :=
  match parent with
  | none => e
  | some id => { e with awaited := e.awaited.insertNew id group }

/-- Ends the waiting for a span that has come to a group, and merges the group that waited for it.
Returns the key of the group that was merged. -/
def welcome (e : Engine) (id : SpanId) (group : TraceId) : Engine × Option TraceId :=
  match e.awaited.find? id with
  | none => (e, none)
  | some waiting =>
    let e := { e with awaited := e.awaited.erase id }
    match e.merge? waiting group with
    | some merged => (merged, some waiting)
    | none => (e, none)

/-- Records a span in a group that does not have it yet. -/
def record (e : Engine) (group : TraceId) (s : Span) : Engine × Outcome :=
  let (members, outcome) := keepSpan e.limits (e.members group) s
  ({ e with
      groups := e.groups.update group fun _ => { members with seen := members.seen ++ [s.id] }
      homes := e.homes.insert s.id group
      counters := e.counters.count outcome },
    outcome)

/-- Places a span with an identifier. -/
def placeAssigned (e : Engine) (wire : TraceId) (s : Span) : Engine × Report :=
  let (group, e) := e.route wire s
  let (e, evicted) := e.openGroup group
  if s.id ∈ (e.members group).seen then
    ({ e with counters := e.counters.count .duplicate },
      { group := group, outcome := .duplicate, evicted := evicted })
  else
    let (e, outcome) := e.record group s
    let (e, mergedFrom) := (e.await s.parent group).welcome s.id group
    (e, { group := group, outcome := outcome, mergedFrom := mergedFrom, evicted := evicted })

/-- Places a span without an identifier: it is kept by the group of its parent, but nothing else
comes to know of it. -/
def placeUnassigned (e : Engine) (wire : TraceId) (s : Span) : Engine × Report :=
  match (s.parent.bind e.homes.find?).filter e.containsGroup with
  | none =>
    ({ e with counters := e.counters.count .unplaced }, { group := wire, outcome := .unplaced })
  | some group =>
    let (members, outcome) := keepSpan e.limits (e.members group) s
    ({ e with
        groups := (e.groups.touch group).update group fun _ => members
        counters := e.counters.count outcome },
      { group := group, outcome := outcome })

/-- Places a span that was sent under a trace identifier. -/
def place (e : Engine) (wire : TraceId) (s : Span) : Engine × Report :=
  if s.id.isUnassigned then e.placeUnassigned wire s else e.placeAssigned wire s

/-- Places spans one after another. -/
def run (e : Engine) : List (TraceId × Span) → Engine × List Report
  | [] => (e, [])
  | (wire, s) :: rest =>
    let (e, report) := e.place wire s
    let (e, reports) := run e rest
    (e, report :: reports)

theorem place_unassigned {e : Engine} {wire : TraceId} {s : Span} (h : s.id.isUnassigned = true) :
    e.place wire s = e.placeUnassigned wire s := by
  simp [place, h]

theorem place_assigned {e : Engine} {wire : TraceId} {s : Span} (h : s.id.isUnassigned = false) :
    e.place wire s = e.placeAssigned wire s := by
  simp [place, h]

/-- The engine after a run. -/
theorem fst_run (e : Engine) (steps : List (TraceId × Span)) :
    (e.run steps).1 = steps.foldl (fun e step => (e.place step.1 step.2).1) e := by
  induction steps generalizing e with
  | nil => rfl
  | cons step rest ih => exact ih (e.place step.1 step.2).1

theorem run_append (e : Engine) (first second : List (TraceId × Span)) :
    e.run (first ++ second) =
      (((e.run first).1.run second).1, (e.run first).2 ++ ((e.run first).1.run second).2) := by
  induction first generalizing e with
  | nil => rfl
  | cons step rest ih => simp [run, ih]

end TraceWeave.Grouping.Engine
