import TraceWeave.Proofs.Grouping.Effect

/-!
# What the counters count

Each operation of the engine counts what it does. Taken together, a placement adds to the counters
what its report says: one for what became of the span, one for a group that was not there before,
one for a group that had to go and one for a group that was merged.

* `counters_place`: the counters after a placement, given its report.
-/

namespace TraceWeave.Grouping

/-- The counters after a report, given the keys of the groups that were there before it. -/
def Counters.after (c : Counters) (keys : List TraceId) (r : Report) : Counters :=
  { c.count r.outcome with
    created := c.created + if r.outcome ≠ .unplaced ∧ r.group ∉ keys then 1 else 0
    evicted := c.evicted + if r.evicted.isSome then 1 else 0
    merged := c.merged + if r.mergedFrom.isSome then 1 else 0 }

/-! ## What became of a span -/

namespace Counters

theorem recorded_count (c : Counters) (o : Outcome) :
    (c.count o).retained + (c.count o).truncated =
      c.retained + c.truncated + if o = .duplicate ∨ o = .unplaced then 0 else 1 := by
  cases o <;> simp [count] <;> omega

theorem duplicates_count (c : Counters) (o : Outcome) :
    (c.count o).duplicates = c.duplicates + if o = .duplicate then 1 else 0 := by
  cases o <;> rfl

theorem unplaced_count (c : Counters) (o : Outcome) :
    (c.count o).unplaced = c.unplaced + if o = .unplaced then 1 else 0 := by
  cases o <;> rfl

end Counters

namespace Engine

/-! ## The operations -/

theorem counters_route (e : Engine) (wire : TraceId) (s : Span) :
    (e.route wire s).2.counters = e.counters := by
  unfold route
  split
  · rfl
  · split <;> rfl

theorem counters_evictOldest (e : Engine) :
    e.evictOldest.1.counters =
      { e.counters with
        evicted := e.counters.evicted + if e.evictOldest.2.isSome then 1 else 0 } := by
  unfold evictOldest
  split <;> rfl

theorem counters_openGroup (e : Engine) (key : TraceId) :
    (e.openGroup key).1.counters =
      { e.counters with
        created := e.counters.created + if key ∉ e.groups.keys then 1 else 0
        evicted := e.counters.evicted + if (e.openGroup key).2.isSome then 1 else 0 } := by
  by_cases hlive : key ∈ e.groups.keys
  · simp [openGroup, find?_of_mem hlive, hlive]
  · have hnone := Recency.find?_eq_none_iff.mpr hlive
    by_cases hfull : e.limits.groups ≤ e.groups.length
    · simp only [openGroup, hnone, hfull, if_true, hlive, not_false_eq_true,
        counters_evictOldest]
    · simp [openGroup, hnone, hfull, hlive]

theorem counters_record (e : Engine) (key : TraceId) (s : Span) :
    (e.record key s).1.counters = e.counters.count (e.record key s).2 := by
  simp only [record]

theorem counters_await (e : Engine) (parent : Option SpanId) (key : TraceId) :
    (e.await parent key).counters = e.counters := by
  cases parent <;> rfl

theorem counters_merge? {e e' : Engine} {source target : TraceId}
    (hmerge : e.merge? source target = some e') :
    e'.counters = { e.counters with merged := e.counters.merged + 1 } := by
  unfold merge? at hmerge
  split at hmerge
  · cases hmerge
  · split at hmerge
    · cases hmerge
      rfl
    · cases hmerge

theorem counters_welcome (e : Engine) (id : SpanId) (key : TraceId) :
    (e.welcome id key).1.counters =
      { e.counters with
        merged := e.counters.merged + if (e.welcome id key).2.isSome then 1 else 0 } := by
  cases hawaited : e.awaited.find? id with
  | none => simp [welcome, hawaited]
  | some waiting =>
    cases hmerge : merge? { e with awaited := e.awaited.erase id } waiting key with
    | none => simp [welcome, hawaited, hmerge]
    | some merged => simp [welcome, hawaited, hmerge, counters_merge? hmerge]

/-! ## A placement -/

theorem counters_placeUnassigned (e : Engine) (wire : TraceId) (s : Span) :
    (e.placeUnassigned wire s).1.counters =
      e.counters.after e.groups.keys (e.placeUnassigned wire s).2 := by
  unfold placeUnassigned
  split
  · simp [Counters.after, Counters.count]
  · next group hgroup =>
    have hlive : group ∈ e.groups.keys :=
      containsGroup_iff.mp (Option.filter_eq_some_iff.mp hgroup).2
    cases houtcome : (keepSpan e.limits (e.members group) s).2 <;>
      simp [Counters.after, Counters.count, hlive, houtcome]

theorem counters_placeAssigned (e : Engine) (wire : TraceId) (s : Span) :
    (e.placeAssigned wire s).1.counters =
      e.counters.after e.groups.keys (e.placeAssigned wire s).2 := by
  have hgroups : (e.route wire s).2.groups.keys = e.groups.keys := by
    rw [(route_routed e wire s).2.groups_eq]
  have hopened : (e.opened wire s).1.counters =
      { e.counters with
        created := e.counters.created + if e.target wire s ∉ e.groups.keys then 1 else 0
        evicted := e.counters.evicted + if (e.opened wire s).2.isSome then 1 else 0 } := by
    rw [opened, counters_openGroup, counters_route, hgroups]
  rw [placeAssigned_eq]
  split
  · simp [hopened, Counters.after, Counters.count]
  · have houtcome : (e.recorded wire s).2 ≠ .unplaced := keepSpan_ne_unplaced _ _ _
    have hrecorded : (e.recorded wire s).1.counters =
        (e.opened wire s).1.counters.count (e.recorded wire s).2 := counters_record _ _ _
    rw [counters_welcome, awaiting, counters_await, hrecorded, hopened]
    cases h : (e.recorded wire s).2 <;> simp_all [Counters.after, Counters.count]

/-- **The counters after a placement** are what its report adds to those before. -/
theorem counters_place (e : Engine) (wire : TraceId) (s : Span) :
    (e.place wire s).1.counters = e.counters.after e.groups.keys (e.place wire s).2 := by
  unfold place
  split
  · exact counters_placeUnassigned e wire s
  · exact counters_placeAssigned e wire s

end Engine

end TraceWeave.Grouping
