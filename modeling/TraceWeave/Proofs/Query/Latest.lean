import TraceWeave.Proofs.Grouping.Effect
import TraceWeave.Proofs.Query.Shown

/-!
# The latest trace

Without any wish of its own a query asks for the last trace. Which one that is goes by touch and not
by time: it is the group that the last placement was about, unless that placement was refused. No
group is ever without spans, so the group in front is also the one that is shown.

* `Step.leading`: the group of a placement comes to the front;
* `leading_run`: the group in front after a run;
* `execute_default`: what a query without wishes shows;
* `execute_latest`: both together.
-/

namespace TraceWeave

open Query

namespace Grouping

/-- The last span of a run that was placed, with its report. -/
def lastPlaced? (steps : List (TraceId × Span)) (reports : List Report) : Option (Span × Report) :=
  (((steps.map (·.2)).zip reports).filter fun (_, r) => r.outcome ≠ .unplaced).getLast?

theorem lastPlaced?_append_singleton {steps : List (TraceId × Span)} {reports : List Report}
    (hlength : reports.length = steps.length) (wire : TraceId) (s : Span) (r : Report) :
    lastPlaced? (steps ++ [(wire, s)]) (reports ++ [r]) =
      if r.outcome = .unplaced then lastPlaced? steps reports else some (s, r) := by
  rw [lastPlaced?, List.map_append, List.zip_append (by simp [hlength]), List.filter_append]
  by_cases hunplaced : r.outcome = .unplaced
  · simp [hunplaced, lastPlaced?]
  · simp [hunplaced]

theorem exists_lastPlaced {steps : List (TraceId × Span)} {reports : List Report}
    (hlength : reports.length = steps.length) (hplaced : ∃ r ∈ reports, r.outcome ≠ .unplaced) :
    ∃ s r, lastPlaced? steps reports = some (s, r) := by
  obtain ⟨r, hr, hne⟩ := hplaced
  have hreports : ((steps.map (·.2)).zip reports).map Prod.snd = reports :=
    List.map_snd_zip (by simp [hlength])
  rw [← hreports] at hr
  obtain ⟨⟨s, r⟩, hmem, rfl⟩ := List.mem_map.mp hr
  cases hlast : lastPlaced? steps reports with
  | some last => exact ⟨last.1, last.2, rfl⟩
  | none =>
    have hnil := List.filter_eq_nil_iff.mp (List.getLast?_eq_none_iff.mp hlast) (s, r) hmem
    exact absurd (decide_eq_true hne) hnil

namespace Engine

variable {e e' : Engine} {wire : TraceId} {s : Span} {r : Report}

/-- The group of the report is in front, and it has the span if the report says so. -/
structure Leading (e : Engine) (s : Span) (r : Report) : Prop where
  head_eq : e.groups.keys.head? = some r.group
  retained : r.outcome = .retained → s ∈ (e.members r.group).spans

theorem Leading.snapshot_eq (h : Leading e s r) :
    ∃ rest, e.snapshot = ⟨r.group, (e.members r.group).spans⟩ :: rest := by
  have hhead := h.head_eq
  cases hgroups : e.groups with
  | nil =>
    rw [hgroups] at hhead
    cases hhead
  | cons entry rest =>
    obtain ⟨key, m⟩ := entry
    rw [hgroups] at hhead
    obtain rfl : key = r.group := Option.some.inj hhead
    have hmembers : e.members r.group = m := by simp [members, hgroups, Recency.find?]
    exact ⟨rest.map fun entry => ⟨entry.1, entry.2.spans⟩, by
      rw [snapshot, hgroups, hmembers]
      rfl⟩

theorem Step.leading (hstep : Step e wire s e' r) (hplaced : r.outcome ≠ .unplaced) :
    Leading e' s r where
  head_eq := by rw [hstep.keys_touched, Report.touch, if_neg hplaced, List.head?_cons]
  retained := by
    intro hretained
    rw [hstep.spans_eq, if_pos rfl, if_pos hretained]
    simp

theorem Step.still_leading (hstep : Step e wire s e' r) (hunplaced : r.outcome = .unplaced)
    {t : Span} {last : Report} (h : Leading e t last) : Leading e' t last where
  head_eq := by rw [hstep.keys_touched, Report.touch, if_pos hunplaced, h.head_eq]
  retained := by
    intro hretained
    have hkept : (e'.members last.group).spans = (e.members last.group).spans := by
      cases hstep with
      | unplaced hstep => rw [hstep.engine_eq]; rfl
      | followed hstep => exact absurd hunplaced hstep.outcome_ne
      | repeated hstep => rw [hstep.members_eq]
      | admitted hstep => exact absurd hunplaced hstep.outcome_ne
    rw [hkept]
    exact h.retained hretained

theorem leading_run (groups spans : Nat) (steps : List (TraceId × Span)) :
    ((new groups spans).run steps).2.length = steps.length ∧
      ∀ s r, lastPlaced? steps ((new groups spans).run steps).2 = some (s, r) →
        Leading ((new groups spans).run steps).1 s r := by
  refine run_history_induction (P := fun steps e reports =>
    reports.length = steps.length ∧
      ∀ s r, lastPlaced? steps reports = some (s, r) → Leading e s r) ⟨rfl, ?_⟩ ?_ steps
  · intro s r hnone
    cases hnone
  · intro steps e reports wire s e' r _ hstep ⟨hlength, hleading⟩
    refine ⟨by simp [hlength], ?_⟩
    intro t last hlast
    rw [lastPlaced?_append_singleton hlength] at hlast
    split at hlast
    · next hunplaced => exact hstep.still_leading hunplaced (hleading t last hlast)
    · next hplaced =>
      cases hlast
      exact hstep.leading hplaced

end Engine

end Grouping

namespace Query

/-- A query without wishes shows the first trace, as it is. -/
theorem execute_default {g : TraceGroup} (hspans : g.spans ≠ []) (rest : List TraceGroup)
    (now : UInt64) : execute (g :: rest) {} now = .ok { traces := [g], warning := none } := by
  have heligible : Eligible (g :: rest) {} now g := by
    obtain ⟨s, hs⟩ := List.exists_mem_of_ne_nil _ hspans
    refine ⟨⟨s, hs, live_of_window_none rfl now s⟩, by simp, ?_⟩
    intro hactive
    exact absurd (ite_self _) hactive
  have hshown : Options.shown {} (g :: rest) now = id := funext fun _ => shown_eq_self now rfl rfl
  rw [execute_eq (List.cons_ne_nil _ _), if_pos (by simp [Options.unknown]), filterMap_keep, hshown,
    List.map_id, List.filter_cons_of_pos (by simpa using heligible)]
  rfl

open Grouping Engine

/-- **A query without wishes shows what was touched last.** If any span of a run was placed, the
query is answered with one trace: the group that the last such span was placed in, with all the
spans that it keeps, among them this one if it is kept. -/
theorem execute_latest (groups spans : Nat) (steps : List (TraceId × Span)) (now : UInt64)
    (hplaced : ∃ r ∈ ((new groups spans).run steps).2, r.outcome ≠ .unplaced) :
    let e := ((new groups spans).run steps).1
    ∃ s r, lastPlaced? steps ((new groups spans).run steps).2 = some (s, r) ∧
      ∃ m : Members, (r.group, m) ∈ e.groups ∧
        execute e.snapshot {} now = .ok { traces := [⟨r.group, m.spans⟩], warning := none } ∧
        (r.outcome = .retained → s ∈ m.spans) := by
  intro e
  obtain ⟨hlength, hleading⟩ := leading_run groups spans steps
  obtain ⟨s, r, hlast⟩ := exists_lastPlaced hlength hplaced
  have hlead := hleading s r hlast
  have hsound : e.Sound := sound_run groups spans steps
  have hlive : r.group ∈ e.groups.keys := List.mem_of_mem_head? hlead.head_eq
  refine ⟨s, r, hlast, e.members r.group, (mem_groups_iff hsound).mpr ⟨hlive, rfl⟩, ?_,
    hlead.retained⟩
  obtain ⟨rest, hsnapshot⟩ := hlead.snapshot_eq
  rw [hsnapshot]
  exact execute_default (hsound.members_sound _ hlive).spans_ne_nil rest now

/-- The last placement but one merges two groups, and the last span is refused. -/
theorem execute_latest_merged :
    let steps : List (TraceId × Span) :=
      [(⟨"w1"⟩, bareSpan "a" none), (⟨"w2"⟩, bareSpan "c" (some "b")), (⟨"w3"⟩, bareSpan "d" none),
        (⟨"w3"⟩, bareSpan "b" (some "a")), (⟨"w4"⟩, bareSpan "" (some "z"))]
    let run := (new 3 10).run steps
    (∃ r ∈ run.2, r.outcome ≠ .unplaced) ∧
      lastPlaced? steps run.2 = some (bareSpan "b" (some "a"),
        { group := ⟨"w1"⟩, outcome := .retained, mergedFrom := some ⟨"w2"⟩ }) ∧
      ∃ m : Members, bareSpan "b" (some "a") ∈ m.spans ∧
        execute run.1.snapshot {} 0 = .ok { traces := [⟨⟨"w1"⟩, m.spans⟩], warning := none } := by
  intro steps run
  have hplaced : ∃ r ∈ run.2, r.outcome ≠ .unplaced := by decide
  have hlast : lastPlaced? steps run.2 = some (bareSpan "b" (some "a"),
      { group := ⟨"w1"⟩, outcome := .retained, mergedFrom := some ⟨"w2"⟩ }) := by decide
  obtain ⟨s, r, hsome, m, -, hexecute, hretained⟩ := execute_latest 3 10 steps 0 hplaced
  obtain ⟨rfl, rfl⟩ := Prod.mk.inj (Option.some.inj (hlast.symm.trans hsome))
  exact ⟨hplaced, hlast, m, hretained rfl, hexecute⟩

end Query

end TraceWeave
