import TraceWeave.Clock
import TraceWeave.Trace.Span

/-!
# Trace groups

A trace group is a trace as it is shown: its key, which is the trace identifier under which its
first span was sent, and its spans. A snapshot is a list of groups, the most recently touched one
first.

* `TraceGroup.start_le`, `TraceGroup.exists_start_eq`: a group starts with the first of its spans.
-/

namespace TraceWeave

/-- A trace with the spans kept of it. -/
structure TraceGroup where
  key : TraceId
  spans : List Span
deriving DecidableEq, Repr

/-- The time bounds of a trace. -/
structure Summary where
  key : TraceId
  start : Nat
  finish : Nat
deriving DecidableEq, Repr

namespace TraceGroup

/-- The earliest start, or zero without spans. -/
def start (g : TraceGroup) : Nat :=
  ((g.spans.map (·.start.toNat)).min?).getD 0

/-- The latest finish, or zero without spans. -/
def finish (g : TraceGroup) : Nat :=
  ((g.spans.map (·.finish.toNat)).max?).getD 0

def summary (g : TraceGroup) : Summary :=
  ⟨g.key, g.start, g.finish⟩

/-- The keys of all attributes of all spans, with repeats. -/
def attributeKeys (g : TraceGroup) : List String :=
  g.spans.flatMap fun s => s.attributes.map (·.key)

theorem start_le {g : TraceGroup} {s : Span} (h : s ∈ g.spans) : g.start ≤ s.start.toNat := by
  have hmem : s.start.toNat ∈ g.spans.map (·.start.toNat) := List.mem_map.2 ⟨s, h, rfl⟩
  unfold start
  cases hmin : (g.spans.map (·.start.toNat)).min? with
  | none => exact Nat.zero_le _
  | some m => exact (List.min?_eq_some_iff.1 hmin).2 _ hmem

theorem exists_start_eq {g : TraceGroup} (h : g.spans ≠ []) :
    ∃ s ∈ g.spans, s.start.toNat = g.start := by
  cases hmin : (g.spans.map (·.start.toNat)).min? with
  | none => exact absurd (List.map_eq_nil_iff.1 (List.min?_eq_none_iff.1 hmin)) h
  | some m =>
    obtain ⟨s, hs, hm⟩ := List.mem_map.1 (List.min?_eq_some_iff.1 hmin).1
    exact ⟨s, hs, by rw [start, hmin, hm, Option.getD_some]⟩

end TraceGroup

/-- Nanoseconds in milliseconds. -/
def millis (nanos : Nat) : Binary64 :=
  (Binary64.ofNat nanos).divNat 1_000_000

namespace Summary

/-- The milliseconds from start to finish. -/
def totalMillis (s : Summary) : Binary64 :=
  millis (s.finish - s.start)

/-- The start as date and time, or `unknown` where no start was given. -/
def timestamp (s : Summary) : String :=
  if s.start = 0 then "unknown" else String.ofList (Clock.dateTime s.start)

end Summary

end TraceWeave
