import TraceWeave.Grouping.Index
import TraceWeave.Grouping.Recency
import TraceWeave.Trace.Group

/-!
# The grouping engine

Spans of one request may be sent under different trace identifiers. The engine puts them together
again by the links between spans: a child joins the group of its parent, and a parent that comes
after its children joins theirs. Two groups between which a link becomes known are merged.

The engine holds a limited number of groups. When a new one needs room, the group that was touched
least recently is forgotten together with everything the indices know about it.

This module holds the state and the steps on it; `Grouping/Placement` puts them together.
-/

namespace TraceWeave.Grouping

/-- How much is kept: groups, and spans of each group. Neither may be zero. -/
structure Limits where
  groups : Nat
  spans : Nat
  groups_pos : 0 < groups
  spans_pos : 0 < spans
deriving DecidableEq, Repr

/-- Limits as asked for, with zero raised to one. -/
def Limits.of (groups spans : Nat) : Limits :=
  ⟨max groups 1, max spans 1, by omega, by omega⟩

/-- What a group consists of. -/
structure Members where
  /-- The spans kept, in order of arrival. -/
  spans : List Span := []
  /-- Every identifier that ever came, also of spans that were not kept. -/
  seen : List SpanId := []
deriving DecidableEq, Repr

/-- What became of a span. -/
inductive Outcome
  /-- Recorded and kept. -/
  | retained
  /-- Recorded, but its group keeps no more spans. -/
  | truncated
  /-- Recorded in its group before. -/
  | duplicate
  /-- Without an identifier, and its parent is not known. -/
  | unplaced
deriving DecidableEq, Repr

/-- What placing a span did. -/
structure Report where
  group : TraceId
  outcome : Outcome
  /-- The group that was merged into `group`. -/
  mergedFrom : Option TraceId := none
  /-- The group that had to make room. -/
  evicted : Option TraceId := none
deriving DecidableEq, Repr

/-- How often each thing happened. -/
structure Counters where
  retained : Nat := 0
  truncated : Nat := 0
  duplicates : Nat := 0
  unplaced : Nat := 0
  created : Nat := 0
  evicted : Nat := 0
  merged : Nat := 0
deriving DecidableEq, Repr

/-- Counts what became of a span. -/
def Counters.count (c : Counters) : Outcome → Counters
  | .retained => { c with retained := c.retained + 1 }
  | .truncated => { c with truncated := c.truncated + 1 }
  | .duplicate => { c with duplicates := c.duplicates + 1 }
  | .unplaced => { c with unplaced := c.unplaced + 1 }

/-- The state of the engine. -/
structure Engine where
  limits : Limits
  /-- The groups, the one touched last in front. -/
  groups : Recency TraceId Members
  /-- The group that each recorded span belongs to. -/
  homes : Index SpanId TraceId
  /-- The groups of children whose parent has not come yet, by the parent. -/
  awaited : Index SpanId TraceId
  counters : Counters
deriving DecidableEq, Repr

namespace Engine

/-- The engine that has seen nothing. -/
def new (groups spans : Nat) : Engine where
  limits := .of groups spans
  groups := []
  homes := .empty
  awaited := .empty
  counters := {}

/-! ## Looking -/

/-- The group that a recorded span belongs to. -/
def groupOf (e : Engine) (id : SpanId) : Option TraceId :=
  e.homes.find? id

/-- The group that waits for a span to come. -/
def awaitingParent (e : Engine) (id : SpanId) : Option TraceId :=
  e.awaited.find? id

/-- The members of a group. A group that does not exist has none. -/
def members (e : Engine) (key : TraceId) : Members :=
  (e.groups.find? key).getD {}

def containsGroup (e : Engine) (key : TraceId) : Bool :=
  (e.groups.find? key).isSome

/-- The groups with their spans, the one touched last in front. -/
def snapshot (e : Engine) : List TraceGroup :=
  e.groups.map fun (key, members) => ⟨key, members.spans⟩

/-! ## Steps -/

/-- Adds a span to those that are kept, if there is room. -/
def keepSpan (limits : Limits) (members : Members) (s : Span) : Members × Outcome :=
  if members.spans.length < limits.spans then
    ({ members with spans := members.spans ++ [s] }, .retained)
  else (members, .truncated)

/-- Forgets the group touched least recently, every entry that names it, and every entry that
waits for one of its spans. -/
def evictOldest (e : Engine) : Engine × Option TraceId :=
  match e.groups.getLast? with
  | none => (e, none)
  | some (key, members) =>
    ({ e with
        groups := e.groups.dropLast
        homes := e.homes.keep fun id owner => !(owner = key && id ∈ members.seen)
        awaited := e.awaited.keep fun id owner => !(owner = key || id ∈ members.seen)
        counters := { e.counters with evicted := e.counters.evicted + 1 } },
      some key)

/-- Makes a group the one touched last, and creates it if there is none of that key. Returns the
key of the group that had to make room. -/
def openGroup (e : Engine) (key : TraceId) : Engine × Option TraceId :=
  match e.groups.find? key with
  | some _ => ({ e with groups := e.groups.touch key }, none)
  | none =>
    let (e, evicted) :=
      if e.limits.groups ≤ e.groups.length then e.evictOldest else (e, none)
    ({ e with
        groups := e.groups.push key {}
        counters := { e.counters with created := e.counters.created + 1 } },
      evicted)

/-- Merges a group into another one, in whose place the result stays. Spans are moved even over
the limit, but not those whose identifier has come to the other group as well. -/
def merge? (e : Engine) (source target : TraceId) : Option Engine :=
  if source = target then none
  else
    match e.groups.find? source, e.groups.find? target with
    | some moving, some _ =>
      some { e with
        groups := (e.groups.erase source).update target fun members =>
          { spans := members.spans ++ moving.spans.filter fun s => s.id ∉ members.seen
            seen := members.seen ++ moving.seen.filter (· ∉ members.seen) }
        homes := e.homes.insertAll moving.seen target
        awaited := e.awaited.mapValues fun owner => if owner = source then target else owner
        counters := { e.counters with merged := e.counters.merged + 1 } }
    | _, _ => none

end Engine

end TraceWeave.Grouping
