import TraceWeave.Proofs.Grouping.Connection
import TraceWeave.Proofs.Grouping.Counting
import TraceWeave.Proofs.Grouping.Parallel
import TraceWeave.Proofs.Grouping.Residence

/-!
# Spans without an identifier do not influence grouping

A span without an identifier follows its parent. It is kept like any other span: it takes room in
its group, brings the group to the front, and moves along when the group is merged. Nothing of this
comes back to the other spans. A run in which no group has to go, and the same run with such spans
left out, place all other spans alike and end with the same groups.

The two runs do not go at the same pace. A span with an identifier moves both, and they have the
same groups again (`SameGroups.step`). A span without one moves only the first, and leaves its
groups as they are (`Step.sameGroups`). Whether there is room for another group depends on how many
there are, so it is the same in both. Which group has to go depends on the order in which they were
touched, and this order differs; so nothing is said of what follows an eviction.

* `Step.evicted_eq_none_iff`: when no group has to go;
* `sameGroups_run`: two runs;
* `run_identified`: every run, and a span without an identifier after it.
-/

namespace TraceWeave.Grouping.Engine

/-- The engines have the same groups, with the same limit on them, and agree on what each group has
seen and on the two indices. -/
structure SameGroups (e f : Engine) : Prop extends e.Parallel f where
  limit_eq : e.limits.groups = f.limits.groups
  live_iff : ∀ key, key ∈ e.groups.keys ↔ key ∈ f.groups.keys

/-- Among the reports on all spans, those on the spans that have an identifier. -/
def reportsOnIdentified (steps : List (TraceId × Span)) (reports : List Report) : List Report :=
  ((steps.zip reports).filter (!·.1.2.id.isUnassigned)).map (·.2)

variable {e e' f f' g : Engine} {wire : TraceId} {s : Span} {r t : Report}

theorem identified_cons (steps : List (TraceId × Span)) :
    identified ((wire, s) :: steps) =
      if s.id.isUnassigned then identified steps else (wire, s) :: identified steps := by
  cases h : s.id.isUnassigned <;> simp [identified, h]

theorem reportsOnIdentified_cons (steps : List (TraceId × Span)) (reports : List Report) :
    reportsOnIdentified ((wire, s) :: steps) (r :: reports) =
      if s.id.isUnassigned then reportsOnIdentified steps reports
      else r :: reportsOnIdentified steps reports := by
  cases h : s.id.isUnassigned <;> simp [reportsOnIdentified, h]

/-! ## Making room -/

theorem Step.evicted_eq_none_iff (hstep : Step e wire s e' r) (h : e.Sound) :
    r.evicted = none ↔ ¬(r.outcome ≠ .unplaced ∧ r.group ∉ e.groups.keys ∧
      e.groups.keys.length = e.limits.groups) := by
  rw [hstep.evicted_eq h]
  split
  · next hfull =>
    have hne : e.groups.keys ≠ [] := by
      rw [← List.length_pos_iff_ne_nil, hfull.2.2]
      exact e.limits.groups_pos
    exact iff_of_false (mt List.getLast?_eq_none_iff.mp hne) (not_not_intro hfull)
  · next hroom => exact iff_of_true rfl hroom

namespace SameGroups

theorem refl (e : Engine) : e.SameGroups e :=
  ⟨⟨fun _ _ => Iff.rfl, fun _ => rfl, fun _ => rfl⟩, rfl, fun _ => Iff.rfl⟩

theorem trans (h : e.SameGroups f) (h' : f.SameGroups g) : e.SameGroups g where
  toParallel := h.toParallel.trans h'.toParallel
  limit_eq := h.limit_eq.trans h'.limit_eq
  live_iff key := (h.live_iff key).trans (h'.live_iff key)

theorem length_eq (h : e.SameGroups f) (he : e.Sound) (hf : f.Sound) :
    e.groups.keys.length = f.groups.keys.length :=
  ((List.perm_ext_iff_of_nodup he.keys_nodup hf.keys_nodup).mpr h.live_iff).length_eq

variable (h : e.SameGroups f) (he : e.Sound) (hf : f.Sound) (hstep : Step e wire s e' r)
  (hstep' : Step f wire s f' t)
include h he hf hstep hstep'

theorem evicted_none_iff : r.evicted = none ↔ t.evicted = none := by
  have hreports := hstep.reports_parallel hstep' he hf h.toParallel
  rw [hstep.evicted_eq_none_iff he, hstep'.evicted_eq_none_iff hf, hreports.group_eq,
    h.live_iff, h.length_eq he hf, h.limit_eq]
  exact not_congr (and_congr_left fun _ => not_congr hreports.unplaced_iff)

/-- Engines with the same groups still have the same groups after the same span, if no group has to
go for it. -/
theorem step (hstay : r.evicted = none) : e'.SameGroups f' := by
  have hreports := hstep.reports_parallel hstep' he hf h.toParallel
  have hstay' : t.evicted = none := (h.evicted_none_iff he hf hstep hstep').mp hstay
  refine ⟨hstep.parallel hstep' h.toParallel hreports (hstay.trans hstay'.symm), ?_, ?_⟩
  · rw [hstep.limits_eq, hstep'.limits_eq, h.limit_eq]
  · intro key
    rw [hstep.mem_keys_iff, hstep'.mem_keys_iff, h.live_iff, hreports.group_eq,
      hreports.mergedFrom_eq, hstay, hstay', ne_eq, hreports.unplaced_iff]

end SameGroups

/-! ## A span without an identifier -/

theorem Followed.sameGroups (hstep : Followed e s e' r) (h : e.Sound) : e'.SameGroups e where
  seen_iff key id := by rw [hstep.seen_eq]
  groupOf_eq id := by rw [groupOf, groupOf, hstep.homes_eq]
  awaitingParent_eq id := by rw [awaitingParent, awaitingParent, hstep.awaited_eq]
  limit_eq := by rw [hstep.limits_eq]
  live_iff key := by
    have hlive := hstep.live h
    rw [hstep.keys_eq]
    by_cases hkey : key = r.group <;> simp [hkey, hlive]

/-- A span without an identifier leaves the groups, and all that is known of them, as they are. -/
theorem Step.sameGroups (hstep : Step e wire s e' r) (h : e.Sound)
    (hid : s.id.isUnassigned = true) : e'.SameGroups e := by
  cases hstep with
  | unplaced hstep =>
    rw [hstep.engine_eq]
    exact ⟨⟨fun _ _ => Iff.rfl, fun _ => rfl, fun _ => rfl⟩, rfl, fun _ => Iff.rfl⟩
  | followed hstep => exact hstep.sameGroups h
  | repeated hstep => cases hid.symm.trans hstep.assigned
  | admitted hstep => cases hid.symm.trans hstep.assigned

/-- It makes no group, merges none and has none go. -/
theorem created_merged_evicted_place (h : e.Sound) (wire : TraceId)
    (hid : s.id.isUnassigned = true) :
    let c := (e.place wire s).1.counters
    c.created = e.counters.created ∧ c.merged = e.counters.merged ∧
      c.evicted = e.counters.evicted := by
  intro c
  have hstep := step_place h wire s
  obtain ⟨hmerged, hevicted⟩ := hstep.still_of_unassigned hid
  have hlive : ¬((e.place wire s).2.outcome ≠ .unplaced ∧
      (e.place wire s).2.group ∉ e.groups.keys) := by
    rintro ⟨hplaced, hnew⟩
    have hafter := hstep.mem_keys_iff.mpr (.inl ⟨hplaced, rfl⟩)
    exact hnew (((hstep.sameGroups h hid).live_iff _).mp hafter)
  have hcounters : c = e.counters.after e.groups.keys (e.place wire s).2 := counters_place e wire s
  rw [hcounters, Counters.after, if_neg hlive, hmerged, hevicted]
  exact ⟨rfl, rfl, rfl⟩

/-- It is left out exactly if its parent is not found. -/
theorem Step.unplaced_iff_not_resident (hstep : Step e wire s e' r) (h : e.Sound)
    (hid : s.id.isUnassigned = true) :
    r.outcome = .unplaced ↔ ¬∃ p, s.parent = some p ∧ e.Resident p := by
  rw [hstep.unplaced_iff h, and_iff_right hid, ← Option.not_isSome_iff_eq_none,
    Option.isSome_iff_exists]
  simp only [h.resident_iff_home, Option.bind_eq_some_iff]
  rw [exists_comm]
  simp only [exists_and_left]

/-! ## Runs -/

theorem sameGroups_run (he : e.Sound) (hf : f.Sound) (h : e.SameGroups f)
    (steps : List (TraceId × Span)) (hstay : ∀ r ∈ (e.run steps).2, r.evicted = none) :
    (∀ t ∈ (f.run (identified steps)).2, t.evicted = none) ∧
      List.Forall₂ Report.Parallel (reportsOnIdentified steps (e.run steps).2)
        (f.run (identified steps)).2 ∧
      (e.run steps).1.SameGroups (f.run (identified steps)).1 := by
  induction steps generalizing e f with
  | nil => exact ⟨by simp [identified, run], .nil, h⟩
  | cons step rest ih =>
    obtain ⟨wire, s⟩ := step
    have hstep := step_place he wire s
    rw [run, List.forall_mem_cons] at hstay
    obtain ⟨hfirst, hlater⟩ := hstay
    rw [run, identified_cons, reportsOnIdentified_cons]
    cases hid : s.id.isUnassigned with
    | true =>
      exact ih (hstep.sound he) hf ((hstep.sameGroups he hid).trans h) hlater
    | false =>
      have hstep' := step_place hf wire s
      have hreport := hstep.reports_parallel hstep' he hf h.toParallel
      have hfirst' := (h.evicted_none_iff he hf hstep hstep').mp hfirst
      obtain ⟨hlater', hreports, hlast⟩ := ih (hstep.sound he) (hstep'.sound hf)
        (h.step he hf hstep hstep' hfirst) hlater
      exact ⟨List.forall_mem_cons.mpr ⟨hfirst', hlater'⟩, .cons hreport hreports, hlast⟩

/-- **Spans without an identifier do not influence grouping.** If no group ever has to go, then
leaving out the spans without an identifier changes nothing for the others: no group has to go then
either, each of the others goes to the same group, is as new there as before and merges the same
group, and the groups are the same in the end. And at any time, even after groups had to go, a span
without an identifier leaves the groups as they are, and is itself left out exactly if its parent is
not found. -/
theorem run_identified (groups spans : Nat) (steps : List (TraceId × Span)) :
    let all := (new groups spans).run steps
    let others := (new groups spans).run (identified steps)
    ((∀ r ∈ all.2, r.evicted = none) →
      (∀ t ∈ others.2, t.evicted = none) ∧
        List.Forall₂ Report.Parallel (reportsOnIdentified steps all.2) others.2 ∧
        all.1.SameGroups others.1) ∧
    ∀ wire s, s.id.isUnassigned = true →
      let (after, report) := all.1.place wire s
      after.SameGroups all.1 ∧ report.mergedFrom = none ∧ report.evicted = none ∧
        after.counters.created = all.1.counters.created ∧
        after.counters.merged = all.1.counters.merged ∧
        after.counters.evicted = all.1.counters.evicted ∧
        (report.outcome = .unplaced ↔ ¬∃ p, s.parent = some p ∧ all.1.Resident p) := by
  intro all others
  have hsound := sound_run groups spans steps
  refine ⟨sameGroups_run (sound_new _ _) (sound_new _ _) (.refl _) steps, fun wire s hid => ?_⟩
  have hstep := step_place hsound wire s
  obtain ⟨hmerged, hevicted⟩ := hstep.still_of_unassigned hid
  obtain ⟨hcreated, hmergedCount, hevictedCount⟩ := created_merged_evicted_place hsound wire hid
  exact ⟨hstep.sameGroups hsound hid, hmerged, hevicted, hcreated, hmergedCount, hevictedCount,
    hstep.unplaced_iff_not_resident hsound hid⟩

/-- A span without an identifier takes the last room in a group, so another one is not kept there,
which is kept if the first is left out. The group is merged into another one all the same. -/
theorem run_identified_merged :
    let steps : List (TraceId × Span) :=
      [(⟨"w1"⟩, bareSpan "c" (some "b")), (⟨"w3"⟩, bareSpan "" (some "c")),
        (⟨"w2"⟩, bareSpan "a" none), (⟨"w1"⟩, bareSpan "d" (some "c")),
        (⟨"w3"⟩, bareSpan "" (some "b")), (⟨"w1"⟩, bareSpan "c" (some "b")),
        (⟨"w3"⟩, bareSpan "b" (some "a"))]
    let all := (new 2 2).run steps
    let others := (new 2 2).run (identified steps)
    (∀ r ∈ all.2, r.evicted = none) ∧ (∀ t ∈ others.2, t.evicted = none) ∧
      all.2.map (·.outcome) =
        [.retained, .retained, .retained, .truncated, .unplaced, .duplicate, .retained] ∧
      others.2.map (·.outcome) = [.retained, .retained, .retained, .duplicate, .retained] ∧
      others.2.map (·.mergedFrom) = [none, none, none, none, some ⟨"w1"⟩] ∧
      List.Forall₂ Report.Parallel (reportsOnIdentified steps all.2) others.2 ∧
      all.1.SameGroups others.1 ∧ (bareSpan "" (some "z")).id.isUnassigned = true ∧
      (all.1.place ⟨"w3"⟩ (bareSpan "" (some "z"))).1.SameGroups all.1 := by
  intro steps all others
  have hstay : ∀ r ∈ all.2, r.evicted = none := by decide
  obtain ⟨hleft, hplace⟩ := run_identified 2 2 steps
  obtain ⟨hstay', hreports, hgroups⟩ := hleft hstay
  exact ⟨hstay, hstay', by decide, by decide, by decide, hreports, hgroups, by decide,
    (hplace ⟨"w3"⟩ (bareSpan "" (some "z")) (by decide)).1⟩

/-- Once a group has to go, the order in which they were touched tells which one. -/
example :
    let steps : List (TraceId × Span) :=
      [(⟨"w1"⟩, bareSpan "a" none), (⟨"w2"⟩, bareSpan "b" none),
        (⟨"w3"⟩, bareSpan "" (some "a")), (⟨"w4"⟩, bareSpan "c" none)]
    ((new 2 10).run steps).2.map (·.evicted) = [none, none, none, some ⟨"w2"⟩] ∧
      ((new 2 10).run (identified steps)).2.map (·.evicted) = [none, none, some ⟨"w1"⟩] := by
  decide

end TraceWeave.Grouping.Engine
