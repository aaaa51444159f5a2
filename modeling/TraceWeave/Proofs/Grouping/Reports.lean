import TraceWeave.Proofs.Grouping.Invariant
import Mathlib.Data.List.Induction

/-!
# What the reports of a run say

Each placement is answered with a report, and the reports alone tell which groups there are and in
which order they were touched: a reader that has seen every report knows the keys of the snapshot,
and knows before each placement whether a group has to go and which one.

* `run_history_induction`: what a placement keeps of all that came before it, a run keeps;
* `Step.keys_touched`: a placement changes the order of the groups as its report says;
* `Step.evicted_eq`: when a group has to go, and which one;
* `run_touched`: the order after a run, and the groups that had to go on the way.
-/

namespace TraceWeave.Grouping

/-- The order of the groups after a report, given the order before it: the groups that went are
taken out, and the group of the span comes to the front. -/
def Report.touch (keys : List TraceId) (r : Report) : List TraceId :=
  if r.outcome = .unplaced then keys
  else r.group :: keys.filter fun k => k ≠ r.group ∧ r.evicted ≠ some k ∧ r.mergedFrom ≠ some k

namespace Engine

variable {e e' : Engine} {wire : TraceId} {s : Span} {r : Report}

/-! ## Reports and placements -/

/-- A report stands where its placement stands in the run. -/
theorem exists_placement {steps : List (TraceId × Span)} {before after : List Report}
    (hsplit : (e.run steps).2 = before ++ r :: after) :
    ∃ first wire s rest, steps = first ++ (wire, s) :: rest ∧ (e.run first).2 = before ∧
      ((e.run first).1.place wire s).2 = r := by
  induction before generalizing e steps with
  | nil =>
    cases steps with
    | nil => cases hsplit
    | cons step rest =>
      exact ⟨[], step.1, step.2, rest, rfl, rfl, (List.cons.inj hsplit).1⟩
  | cons report before ih =>
    cases steps with
    | nil => cases hsplit
    | cons step rest =>
      obtain ⟨hreport, hrest⟩ := List.cons.inj hsplit
      obtain ⟨first, wire, s, later, rfl, hbefore, hr⟩ := ih hrest
      refine ⟨step :: first, wire, s, later, rfl, ?_, hr⟩
      rw [← hreport, ← hbefore]
      rfl

/-- What every placement keeps of the spans, the engine and the reports so far, a run keeps. -/
theorem run_history_induction {groups spans : Nat}
    {P : List (TraceId × Span) → Engine → List Report → Prop} (hnew : P [] (new groups spans) [])
    (hstep : ∀ steps e reports wire s e' r, e.Sound → Step e wire s e' r → P steps e reports →
      P (steps ++ [(wire, s)]) e' (reports ++ [r])) (steps : List (TraceId × Span)) :
    P steps ((new groups spans).run steps).1 ((new groups spans).run steps).2 := by
  induction steps using List.reverseRecOn with
  | nil => exact hnew
  | append_singleton steps step ih =>
    obtain ⟨wire, s⟩ := step
    have hsound := sound_run groups spans steps
    rw [run_append]
    exact hstep _ _ _ _ _ _ _ hsound (step_place hsound wire s) ih

theorem limits_run (groups spans : Nat) (steps : List (TraceId × Span)) :
    ((new groups spans).run steps).1.limits = .of groups spans :=
  run_history_induction (P := fun _ e _ => e.limits = .of groups spans) rfl
    (fun _ _ _ _ _ _ _ _ hstep hlimits => hstep.limits_eq.trans hlimits) steps

/-! ## The report of one placement -/

theorem keepSpan_ne_unplaced (limits : Limits) (m : Members) (s : Span) :
    (keepSpan limits m s).2 ≠ .unplaced := by
  unfold keepSpan
  split <;> simp

theorem spans_keepSpan_append (limits : Limits) (m : Members) (s : Span) :
    (keepSpan limits m s).1.spans =
      m.spans ++ if (keepSpan limits m s).2 = .retained then [s] else [] := by
  unfold keepSpan
  split <;> simp

theorem Followed.outcome_ne (hstep : Followed e s e' r) : r.outcome ≠ .unplaced := by
  rw [hstep.report_eq]
  exact keepSpan_ne_unplaced _ _ _

theorem Followed.still (hstep : Followed e s e' r) : r.mergedFrom = none ∧ r.evicted = none := by
  rw [hstep.report_eq]
  exact ⟨rfl, rfl⟩

namespace Admitted

theorem outcome_ne (hstep : Admitted e wire s e' r) : r.outcome ≠ .unplaced := by
  rw [hstep.outcome_eq]
  exact keepSpan_ne_unplaced _ _ _

theorem merged_ne_group (hstep : Admitted e wire s e' r) : r.mergedFrom ≠ some r.group := by
  rw [hstep.mergedFrom_eq]
  simp

/-- A group goes for one that is not there. -/
theorem evicted_ne_group (hstep : Admitted e wire s e' r) : r.evicted ≠ some r.group := by
  rw [hstep.evicted_eq]
  split
  · simp
  · next hnew => exact fun hlast => hnew (.inl (List.mem_of_getLast? hlast))

theorem merged_awaited (hstep : Admitted e wire s e' r) {src : TraceId}
    (hsrc : r.mergedFrom = some src) : e.awaited.find? s.id = some src := by
  rw [hstep.mergedFrom_eq] at hsrc
  obtain ⟨hbind, -⟩ := Option.filter_eq_some_iff.mp hsrc
  obtain ⟨-, -, hawaited⟩ := Option.bind_eq_some_iff.mp hbind
  exact hawaited

/-- Groups are merged only in a group that was there before, and then none has to go. -/
theorem evicted_of_merged (hstep : Admitted e wire s e' r) (h : e.Sound) {src : TraceId}
    (hsrc : r.mergedFrom = some src) : r.evicted = none := by
  rw [hstep.mergedFrom_eq] at hsrc
  obtain ⟨hbind, -⟩ := Option.filter_eq_some_iff.mp hsrc
  obtain ⟨home, hhome, -⟩ := Option.bind_eq_some_iff.mp hbind
  obtain ⟨p, -, hp⟩ := Option.bind_eq_some_iff.mp hhome
  have hlive : r.group ∈ e.groups.keys := by
    rw [hstep.group_eq, target_of_home hhome]
    exact h.home_live hp
  rw [hstep.evicted_eq, if_pos (.inl hlive)]

end Admitted

/-! ## Touching and evicting -/

theorem Step.keys_touched (hstep : Step e wire s e' r) :
    e'.groups.keys = Report.touch e.groups.keys r := by
  cases hstep with
  | unplaced hstep =>
    rw [hstep.report_eq, hstep.engine_eq]
    rfl
  | followed hstep =>
    obtain ⟨hmerged, hevicted⟩ := hstep.still
    rw [Report.touch, if_neg hstep.outcome_ne, hstep.keys_eq, hmerged, hevicted]
    simp
  | repeated hstep =>
    rw [hstep.keys_eq, hstep.report_eq]
    simp [Report.touch]
  | admitted hstep => rw [Report.touch, if_neg hstep.outcome_ne, hstep.keys_eq]

/-- **When a group has to go**: when the span is placed in a group that is not there and there is
no room for another one. It is the one that was touched least recently. -/
theorem Step.evicted_eq (hstep : Step e wire s e' r) (h : e.Sound) :
    r.evicted =
      if r.outcome ≠ .unplaced ∧ r.group ∉ e.groups.keys ∧
        e.groups.keys.length = e.limits.groups then e.groups.keys.getLast? else none := by
  have hle := h.length_keys_le
  cases hstep with
  | unplaced hstep =>
    rw [hstep.report_eq]
    rfl
  | followed hstep =>
    rw [hstep.still.2, if_neg fun hnew => hnew.2.1 (hstep.live h)]
  | repeated hstep =>
    have hnone : r.evicted = none := by rw [hstep.report_eq]
    rw [hnone, if_neg fun hnew => hnew.2.1 hstep.live]
  | admitted hstep =>
    rw [hstep.evicted_eq, ← Recency.length_keys]
    by_cases hlive : r.group ∈ e.groups.keys
    · rw [if_pos (.inl hlive), if_neg fun hnew => hnew.2.1 hlive]
    · by_cases hroom : e.groups.keys.length < e.limits.groups
      · rw [if_pos (.inr hroom), if_neg fun hnew => by omega]
      · rw [if_neg (by tauto), if_pos ⟨hstep.outcome_ne, hlive, by omega⟩]

theorem Step.evicted_of_live (hstep : Step e wire s e' r) (h : e.Sound)
    (hlive : r.group ∈ e.groups.keys) : r.evicted = none := by
  rw [hstep.evicted_eq h, if_neg fun hnew => hnew.2.1 hlive]

theorem keys_run (groups spans : Nat) (steps : List (TraceId × Span)) :
    ((new groups spans).run steps).1.groups.keys =
      ((new groups spans).run steps).2.foldl Report.touch [] := by
  refine run_history_induction (P := fun _ e reports =>
    e.groups.keys = reports.foldl Report.touch []) rfl ?_ steps
  intro steps e reports wire s e' r _ hstep hkeys
  rw [List.foldl_append, ← hkeys]
  exact hstep.keys_touched

/-- **The order of the groups is what the reports say.** The keys of the snapshot come from the
reports, and a report names a group that had to go exactly if the span was placed in a group that
was not there when there were as many groups as there may be; it names the last one then. -/
theorem run_touched (groups spans : Nat) (steps : List (TraceId × Span)) :
    let reports := ((new groups spans).run steps).2
    ((new groups spans).run steps).1.snapshot.map (·.key) = reports.foldl Report.touch [] ∧
      ∀ before r after, reports = before ++ r :: after →
        let keys := before.foldl Report.touch []
        ((∃ k, r.evicted = some k) ↔ r.outcome ≠ .unplaced ∧ r.group ∉ keys ∧
            keys.length = (Limits.of groups spans).groups) ∧
          ∀ k, r.evicted = some k → keys.getLast? = some k := by
  intro reports
  refine ⟨?_, ?_⟩
  · rw [← keys_run, snapshot, List.map_map]
    rfl
  · intro before r after hsplit keys
    obtain ⟨first, wire, s, rest, -, hbefore, rfl⟩ := exists_placement hsplit
    have hsound := sound_run groups spans first
    have hkeys : ((new groups spans).run first).1.groups.keys = keys := by
      rw [keys_run, hbefore]
    have hevicted := (step_place hsound wire s).evicted_eq hsound
    rw [hkeys, limits_run] at hevicted
    rw [hevicted]
    split
    · next hfull =>
      have hne : keys ≠ [] := by
        rw [← List.length_pos_iff_ne_nil, hfull.2.2]
        exact (Limits.of groups spans).groups_pos
      exact ⟨iff_of_true (Option.isSome_iff_exists.mp (List.getLast?_isSome.mpr hne)) hfull,
        fun _ hlast => hlast⟩
    · next hroom => exact ⟨iff_of_false (by simp) hroom, by simp⟩

/-- The group that came first is touched again, so the other one has to go for a third. -/
theorem run_touched_again :
    let steps : List (TraceId × Span) :=
      [(⟨"w1"⟩, bareSpan "a" none), (⟨"w2"⟩, bareSpan "b" none),
        (⟨"w3"⟩, bareSpan "c" (some "a")), (⟨"w4"⟩, bareSpan "d" none)]
    let before : List Report :=
      [{ group := ⟨"w1"⟩, outcome := .retained }, { group := ⟨"w2"⟩, outcome := .retained },
        { group := ⟨"w1"⟩, outcome := .retained }]
    let last : Report := { group := ⟨"w4"⟩, outcome := .retained, evicted := some ⟨"w2"⟩ }
    let keys := before.foldl Report.touch []
    ((new 2 10).run steps).2 = before ++ [last] ∧
      (last.outcome ≠ .unplaced ∧ last.group ∉ keys ∧ keys.length = (Limits.of 2 10).groups) ∧
      keys.getLast? = some ⟨"w2"⟩ ∧
      ((new 2 10).run steps).1.snapshot.map (·.key) = [⟨"w4"⟩, ⟨"w1"⟩] := by
  intro steps before last keys
  have hsplit : ((new 2 10).run steps).2 = before ++ last :: [] := by decide
  obtain ⟨hkeys, hreports⟩ := run_touched 2 10 steps
  obtain ⟨hevicted, hlast⟩ := hreports before last [] hsplit
  refine ⟨hsplit, hevicted.mp ⟨_, rfl⟩, hlast _ rfl, hkeys.trans ?_⟩
  rw [hsplit]
  decide

end Engine

end TraceWeave.Grouping
