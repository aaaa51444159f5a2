import TraceWeave.Proofs.Grouping.Counting
import TraceWeave.Proofs.Grouping.Parallel

/-!
# The cap on spans does not influence grouping

How many spans a group may keep decides which spans are kept and nothing else. Two engines that
hold equally many groups, but cap them differently, go through the same run side by side: their
reports differ at most in whether a span that was recorded has been kept, and after every placement
both have the same groups in the same order, the same indices and the same counters, as far as
these do not tell the two apart.

* `Step.reports_alike`, `alike_place`: one placement;
* `run_alike`: runs.
-/

namespace TraceWeave.Grouping

/-- The reports say the same, but for whether a span that was recorded has been kept. -/
structure Report.Alike (r t : Report) : Prop where
  group_eq : r.group = t.group
  mergedFrom_eq : r.mergedFrom = t.mergedFrom
  evicted_eq : r.evicted = t.evicted
  duplicate_iff : r.outcome = .duplicate ↔ t.outcome = .duplicate
  unplaced_iff : r.outcome = .unplaced ↔ t.outcome = .unplaced

/-- The counters say the same, but for how many of the spans that were recorded have been kept. -/
structure Counters.Alike (c d : Counters) : Prop where
  recorded_eq : c.retained + c.truncated = d.retained + d.truncated
  duplicates_eq : c.duplicates = d.duplicates
  unplaced_eq : c.unplaced = d.unplaced
  created_eq : c.created = d.created
  evicted_eq : c.evicted = d.evicted
  merged_eq : c.merged = d.merged

/-- The engines know the same, but for the spans that they keep. -/
structure Engine.Alike (e f : Engine) : Prop where
  limit_eq : e.limits.groups = f.limits.groups
  keys_eq : e.groups.keys = f.groups.keys
  seen_iff : ∀ key id, id ∈ (e.members key).seen ↔ id ∈ (f.members key).seen
  groupOf_eq : ∀ id, e.groupOf id = f.groupOf id
  awaitingParent_eq : ∀ id, e.awaitingParent id = f.awaitingParent id
  counters_alike : e.counters.Alike f.counters

namespace Report.Alike

variable {r t : Report}

theorem parallel (h : r.Alike t) : r.Parallel t :=
  ⟨h.group_eq, h.mergedFrom_eq, h.duplicate_iff, h.unplaced_iff⟩

theorem touch_eq (h : r.Alike t) (keys : List TraceId) :
    Report.touch keys r = Report.touch keys t := by
  simp only [Report.touch, h.group_eq, h.mergedFrom_eq, h.evicted_eq, h.unplaced_iff]

/-- A span that is recorded is counted once, whether it is kept or not. -/
theorem counters_after (h : r.Alike t) {c d : Counters} (hcounters : c.Alike d)
    (keys : List TraceId) : (c.after keys r).Alike (d.after keys t) where
  recorded_eq := by
    simp only [Counters.after, Counters.recorded_count, hcounters.recorded_eq, h.duplicate_iff,
      h.unplaced_iff]
  duplicates_eq := by
    simp only [Counters.after, Counters.duplicates_count, hcounters.duplicates_eq,
      h.duplicate_iff]
  unplaced_eq := by
    simp only [Counters.after, Counters.unplaced_count, hcounters.unplaced_eq, h.unplaced_iff]
  created_eq := by
    simp only [Counters.after, hcounters.created_eq, h.group_eq, ne_eq, h.unplaced_iff]
  evicted_eq := by simp only [Counters.after, hcounters.evicted_eq, h.evicted_eq]
  merged_eq := by simp only [Counters.after, hcounters.merged_eq, h.mergedFrom_eq]

end Report.Alike

namespace Engine

variable {e e' f f' : Engine} {wire : TraceId} {s : Span} {r t : Report}

/-! ## One placement -/

theorem Alike.parallel (h : e.Alike f) : e.Parallel f :=
  ⟨h.seen_iff, h.groupOf_eq, h.awaitingParent_eq⟩

/-- Which group goes is decided by the order of the groups, and so without a look at the spans that
are kept as well. -/
theorem Step.reports_alike (hstep : Step e wire s e' r) (hstep' : Step f wire s f' t) (he : e.Sound)
    (hf : f.Sound) (h : e.Alike f) : r.Alike t := by
  have hreports := hstep.reports_parallel hstep' he hf h.parallel
  refine ⟨hreports.group_eq, hreports.mergedFrom_eq, ?_, hreports.duplicate_iff,
    hreports.unplaced_iff⟩
  rw [hstep.evicted_eq he, hstep'.evicted_eq hf]
  simp only [ne_eq, hreports.unplaced_iff, hreports.group_eq, h.keys_eq, h.limit_eq]

theorem alike_place (he : e.Sound) (hf : f.Sound) (h : e.Alike f) (wire : TraceId) (s : Span) :
    (e.place wire s).2.Alike (f.place wire s).2 ∧ (e.place wire s).1.Alike (f.place wire s).1 := by
  have hstep := step_place he wire s
  have hstep' := step_place hf wire s
  have hreports := hstep.reports_alike hstep' he hf h
  have hafter := hstep.parallel hstep' h.parallel hreports.parallel hreports.evicted_eq
  refine ⟨hreports, ?_, ?_, hafter.seen_iff, hafter.groupOf_eq, hafter.awaitingParent_eq, ?_⟩
  · rw [hstep.limits_eq, hstep'.limits_eq, h.limit_eq]
  · rw [hstep.keys_touched, hstep'.keys_touched, h.keys_eq, hreports.touch_eq]
  · rw [counters_place, counters_place, h.keys_eq]
    exact hreports.counters_after h.counters_alike _

/-! ## Runs -/

theorem alike_new (groups cap cap' : Nat) : (new groups cap).Alike (new groups cap') where
  limit_eq := rfl
  keys_eq := rfl
  seen_iff _ _ := Iff.rfl
  groupOf_eq _ := rfl
  awaitingParent_eq _ := rfl
  counters_alike := ⟨rfl, rfl, rfl, rfl, rfl, rfl⟩

theorem alike_run (he : e.Sound) (hf : f.Sound) (h : e.Alike f) (steps : List (TraceId × Span)) :
    List.Forall₂ Report.Alike (e.run steps).2 (f.run steps).2 ∧
      (e.run steps).1.Alike (f.run steps).1 := by
  induction steps generalizing e f with
  | nil => exact ⟨.nil, h⟩
  | cons step rest ih =>
    obtain ⟨wire, s⟩ := step
    obtain ⟨hreport, hafter⟩ := alike_place he hf h wire s
    obtain ⟨hreports, hlast⟩ := ih (sound_place he wire s) (sound_place hf wire s) hafter
    exact ⟨.cons hreport hreports, hlast⟩

/-- **The cap does not influence grouping.** Two engines that hold equally many groups, given the
same spans, answer with reports that are alike, and are alike after every placement, whatever their
caps are. -/
theorem run_alike (groups cap cap' : Nat) (steps : List (TraceId × Span)) :
    List.Forall₂ Report.Alike ((new groups cap).run steps).2 ((new groups cap').run steps).2 ∧
      ∀ before, before <+: steps →
        ((new groups cap).run before).1.Alike ((new groups cap').run before).1 :=
  ⟨(alike_run (sound_new _ _) (sound_new _ _) (alike_new _ _ _) steps).1, fun before _ =>
    (alike_run (sound_new _ _) (sound_new _ _) (alike_new _ _ _) before).2⟩

end Engine

end TraceWeave.Grouping
