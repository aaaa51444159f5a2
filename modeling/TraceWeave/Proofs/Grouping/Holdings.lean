import TraceWeave.Proofs.Grouping.Effect

/-!
# How much a group holds

Spans that come one by one are kept up to the cap and no further, but a merge moves spans over it.
How much a group can hold is therefore a matter of its history: a group weighs one when it is made,
and when another group is merged into it, the weight of that one comes on top. A group keeps at most
the cap for each unit of its weight, and what it keeps as long as nothing has been merged into it
are the first spans that came.

* `Holding`, `Ledger`: what the reports say of the groups since they were made;
* `Step.room_of_retained`, `Step.full_of_truncated`: what decides whether a span is kept;
* `Holding.Fits.receive`, `Holding.Fits.absorb`: a span that comes, and a group that is merged;
* `run_capped`: what the groups hold after a run.
-/

namespace TraceWeave.Grouping

/-- What the reports say of a group since it was made. -/
structure Holding where
  /-- One for the group itself, and the weight of each group that was merged into it. -/
  weight : Nat := 1
  /-- The groups that were merged into it, the latest in front. -/
  merged : List TraceId := []
  /-- The spans that came to it, but for those that it had, in the order in which they came. -/
  arrivals : List Span := []
deriving DecidableEq, Repr

namespace Holding

/-- With a span that came, unless the group had it already. -/
def receive (held : Holding) (s : Span) (outcome : Outcome) : Holding :=
  if outcome = .retained ∨ outcome = .truncated then
    { held with arrivals := held.arrivals ++ [s] }
  else held

/-- With another group merged into this one. -/
def absorb (held : Holding) (src : TraceId) (moved : Holding) : Holding :=
  { held with weight := held.weight + moved.weight, merged := src :: held.merged }

end Holding

/-- What the groups that are there hold, by their keys. -/
abbrev Ledger := TraceId → Option Holding

namespace Ledger

/-- The ledger after a report. A group that it does not have yet has just been made. -/
def post (ledger : Ledger) (s : Span) (r : Report) : Ledger := fun key =>
  if r.outcome ≠ .unplaced ∧ key = r.group then
    let held := ((ledger key).getD {}).receive s r.outcome
    some (r.mergedFrom.elim held fun src => held.absorb src ((ledger src).getD {}))
  else if r.evicted = some key ∨ r.mergedFrom = some key then none
  else ledger key

/-- The ledger of the spans of a run and their reports. -/
def ofRun (steps : List (TraceId × Span)) (reports : List Report) : Ledger :=
  ((steps.map (·.2)).zip reports).foldl (fun ledger (s, r) => ledger.post s r) fun _ => none

theorem ofRun_append_singleton {steps : List (TraceId × Span)} {reports : List Report}
    (hlength : reports.length = steps.length) (wire : TraceId) (s : Span) (r : Report) :
    ofRun (steps ++ [(wire, s)]) (reports ++ [r]) = (ofRun steps reports).post s r := by
  rw [ofRun, List.map_append, List.zip_append (by simp [hlength]), List.foldl_append]
  rfl

end Ledger

/-! ## Holdings and what is kept -/

namespace Holding

variable {held moved : Holding} {cap : Nat} {kept other taken : List Span} {s : Span}
  {outcome : Outcome}

/-- A group of the holding keeps these spans. -/
structure Fits (held : Holding) (cap : Nat) (kept : List Span) : Prop where
  weight_pos : 0 < held.weight
  length_le : kept.length ≤ cap * held.weight
  /-- Without merges the spans that came first are kept. -/
  kept_eq : held.merged = [] → kept = held.arrivals.take cap

theorem fits_new (cap : Nat) : Fits {} cap [] where
  weight_pos := Nat.one_pos
  length_le := Nat.zero_le _
  kept_eq _ := List.take_nil.symm

/-- A span that comes is kept if there is room under the cap. -/
theorem Fits.receive (h : held.Fits cap kept) (hroom : outcome = .retained → kept.length < cap)
    (hfull : outcome = .truncated → cap ≤ kept.length) (s : Span) :
    (held.receive s outcome).Fits cap (kept ++ if outcome = .retained then [s] else []) := by
  by_cases hretained : outcome = .retained
  · have hlt := hroom hretained
    rw [Holding.receive, if_pos (.inl hretained), if_pos hretained]
    refine ⟨h.weight_pos, ?_, fun hmerged => ?_⟩
    · rw [List.length_append, List.length_singleton]
      exact Nat.le_trans hlt (Nat.le_mul_of_pos_right cap h.weight_pos)
    · have hkept := h.kept_eq hmerged
      have hshort : held.arrivals.length < cap := by
        rw [hkept, List.length_take] at hlt
        omega
      rw [hkept, List.take_of_length_le (Nat.le_of_lt hshort), List.take_of_length_le]
      rw [List.length_append, List.length_singleton]
      exact hshort
  · rw [Holding.receive, if_neg hretained, List.append_nil]
    by_cases htruncated : outcome = .truncated
    · have hle := hfull htruncated
      rw [if_pos (.inr htruncated)]
      refine ⟨h.weight_pos, h.length_le, fun hmerged => ?_⟩
      have hkept := h.kept_eq hmerged
      have hlong : cap ≤ held.arrivals.length := by
        rw [hkept, List.length_take] at hle
        omega
      rw [hkept, List.take_append_of_le_length hlong]
    · rw [if_neg (not_or.mpr ⟨hretained, htruncated⟩)]
      exact h

/-- A group that is merged brings at most what it kept. -/
theorem Fits.absorb (h : held.Fits cap kept) (hmoved : moved.Fits cap other)
    (htaken : taken.Sublist other) (src : TraceId) :
    (held.absorb src moved).Fits cap (kept ++ taken) where
  weight_pos := Nat.add_pos_left h.weight_pos _
  length_le := by
    rw [List.length_append, Holding.absorb, Nat.mul_add]
    exact Nat.add_le_add h.length_le (Nat.le_trans htaken.length_le hmoved.length_le)
  kept_eq hmerged := absurd hmerged (List.cons_ne_nil _ _)

end Holding

namespace Engine

variable {e e' : Engine} {wire : TraceId} {s : Span} {r : Report} {ledger : Ledger}

/-! ## Room for a span -/

theorem Step.outcome_of_kept (hstep : Step e wire s e' r) (h : e.Sound)
    (houtcome : r.outcome = .retained ∨ r.outcome = .truncated) :
    r.outcome = (keepSpan e.limits (e.members r.group) s).2 := by
  have heq := hstep.outcome_eq h
  split at heq
  · rw [heq] at houtcome
    simp at houtcome
  · split at heq
    · rw [heq] at houtcome
      simp at houtcome
    · exact heq

theorem Step.room_of_retained (hstep : Step e wire s e' r) (h : e.Sound)
    (hretained : r.outcome = .retained) :
    (e.members r.group).spans.length < e.limits.spans := by
  have heq := hstep.outcome_of_kept h (.inl hretained)
  rw [hretained, keepSpan] at heq
  split at heq
  · next hroom => exact hroom
  · cases heq

theorem Step.full_of_truncated (hstep : Step e wire s e' r) (h : e.Sound)
    (htruncated : r.outcome = .truncated) :
    e.limits.spans ≤ (e.members r.group).spans.length := by
  have heq := hstep.outcome_of_kept h (.inr htruncated)
  rw [htruncated, keepSpan] at heq
  split at heq
  · cases heq
  · next hfull => exact Nat.not_lt.mp hfull

/-! ## One placement -/

/-- The ledger has the groups that are there, and they keep what fits their holdings. -/
structure Booked (ledger : Ledger) (e : Engine) : Prop where
  live_iff : ∀ key, (ledger key).isSome = true ↔ key ∈ e.groups.keys
  fits : ∀ {key held}, ledger key = some held → held.Fits e.limits.spans (e.members key).spans

/-- A group that is not there has the holding of a new one. -/
theorem Booked.fits_getD (hbooked : Booked ledger e) (key : TraceId) :
    ((ledger key).getD {}).Fits e.limits.spans (e.members key).spans := by
  cases hheld : ledger key with
  | some held => exact hbooked.fits hheld
  | none =>
    have hdead : key ∉ e.groups.keys := by
      rw [← hbooked.live_iff, hheld]
      exact Bool.false_ne_true
    rw [members_of_not_mem hdead]
    exact Holding.fits_new _

theorem Step.fits_group (hstep : Step e wire s e' r) (h : e.Sound) (hbooked : Booked ledger e) :
    (r.mergedFrom.elim (((ledger r.group).getD {}).receive s r.outcome) fun src =>
        (((ledger r.group).getD {}).receive s r.outcome).absorb src ((ledger src).getD {})).Fits
      e.limits.spans (e'.members r.group).spans := by
  have hreceived := (hbooked.fits_getD r.group).receive (hstep.room_of_retained h)
    (hstep.full_of_truncated h) s
  rw [hstep.spans_eq, if_pos rfl]
  cases r.mergedFrom with
  | none => simpa using hreceived
  | some src => exact hreceived.absorb (hbooked.fits_getD src) List.filter_sublist src

/-- A group that the report is not about keeps what it kept, unless it goes. -/
theorem Step.spans_other (hstep : Step e wire s e' r) {key : TraceId}
    (hother : ¬(r.outcome ≠ .unplaced ∧ key = r.group))
    (hkept : ¬(r.evicted = some key ∨ r.mergedFrom = some key)) :
    (e'.members key).spans = (e.members key).spans := by
  rw [hstep.spans_eq]
  by_cases hgroup : key = r.group
  · have hunplaced : r.outcome = .unplaced := by
      by_contra hplaced
      exact hother ⟨hplaced, hgroup⟩
    rw [if_pos hgroup, hunplaced, (hstep.still_of_unplaced hunplaced).1]
    simp
  · rw [if_neg hgroup, if_neg hkept]

theorem Step.booked (hstep : Step e wire s e' r) (h : e.Sound) (hbooked : Booked ledger e) :
    Booked (ledger.post s r) e' where
  live_iff key := by
    rw [hstep.mem_keys_iff, Ledger.post, ← hbooked.live_iff]
    split
    · next hself => simp [hself]
    · next hother =>
      split
      · next hgone =>
        simp only [Option.isSome_none, Bool.false_eq_true, false_iff]
        tauto
      · next hkept => tauto
  fits := by
    intro key held hheld
    rw [hstep.limits_eq]
    rw [Ledger.post] at hheld
    split at hheld
    · next hself =>
      obtain ⟨-, rfl⟩ := hself
      rw [← Option.some.inj hheld]
      exact hstep.fits_group h hbooked
    · next hother =>
      split at hheld
      · cases hheld
      · next hkept =>
        rw [hstep.spans_other hother hkept]
        exact hbooked.fits hheld

/-! ## Runs -/

theorem booked_new (groups spans : Nat) : Booked (fun _ => none) (new groups spans) where
  live_iff := by simp [new, Recency.keys]
  fits := by simp

theorem booked_run (groups spans : Nat) (steps : List (TraceId × Span)) :
    Booked (Ledger.ofRun steps ((new groups spans).run steps).2)
      ((new groups spans).run steps).1 := by
  refine (run_history_induction (P := fun steps e reports => reports.length = steps.length ∧
    Booked (Ledger.ofRun steps reports) e) ⟨rfl, booked_new groups spans⟩ ?_ steps).2
  rintro steps e reports wire s e' r hsound hstep ⟨hlength, hbooked⟩
  refine ⟨by simp [hlength], ?_⟩
  rw [Ledger.ofRun_append_singleton hlength]
  exact hstep.booked hsound hbooked

/-- **How much a group holds.** The ledger that is kept from the reports of a run has the groups
that are there. A group keeps at most the cap for each unit of its weight, and exactly the first
spans up to the cap of those that came to it since it was made, if nothing was merged into it since
then. A span that is placed next is kept only if its group keeps less than the cap. -/
theorem run_capped (groups spans : Nat) (steps : List (TraceId × Span)) :
    let e := ((new groups spans).run steps).1
    let ledger := Ledger.ofRun steps ((new groups spans).run steps).2
    let cap := (Limits.of groups spans).spans
    (∀ key, (ledger key).isSome = e.containsGroup key) ∧
      (∀ g ∈ e.snapshot, ∃ held, ledger g.key = some held ∧
        g.spans.length ≤ cap * held.weight ∧
        (held.merged = [] → g.spans = held.arrivals.take cap)) ∧
      ∀ wire s, (e.place wire s).2.outcome = .retained →
        (e.members (e.place wire s).2.group).spans.length < cap := by
  intro e ledger cap
  have hsound : e.Sound := sound_run groups spans steps
  have hbooked : Booked ledger e := booked_run groups spans steps
  have hcap : e.limits.spans = cap := by rw [limits_run groups spans steps]
  refine ⟨fun key => ?_, ?_, fun wire s hretained => ?_⟩
  · rw [Bool.eq_iff_iff, hbooked.live_iff, containsGroup_iff]
  · rintro g hg
    obtain ⟨⟨key, m⟩, hmem, rfl⟩ := List.mem_map.mp hg
    obtain ⟨hlive, rfl⟩ := (mem_groups_iff hsound).mp hmem
    obtain ⟨held, hheld⟩ := Option.isSome_iff_exists.mp ((hbooked.live_iff key).mpr hlive)
    have hfits := hbooked.fits hheld
    rw [hcap] at hfits
    exact ⟨held, hheld, hfits.length_le, hfits.kept_eq⟩
  · rw [← hcap]
    exact (step_place hsound wire s).room_of_retained hsound hretained

/-- A merge takes a group over the cap, and what has come to it since then is turned away. A group
of the key that was merged is made anew and keeps what comes first. -/
theorem run_capped_over :
    let steps : List (TraceId × Span) :=
      [(⟨"w1"⟩, bareSpan "a" none), (⟨"w2"⟩, bareSpan "c" (some "b")),
        (⟨"w3"⟩, bareSpan "b" (some "a")), (⟨"w4"⟩, bareSpan "" (some "c")),
        (⟨"w2"⟩, bareSpan "x" none), (⟨"w2"⟩, bareSpan "y" none)]
    let e := ((new 2 1).run steps).1
    let ledger := Ledger.ofRun steps ((new 2 1).run steps).2
    e.snapshot = [⟨⟨"w2"⟩, [bareSpan "x" none]⟩,
        ⟨⟨"w1"⟩, [bareSpan "a" none, bareSpan "c" (some "b")]⟩] ∧
      (∃ held, ledger ⟨"w1"⟩ = some held ∧ held.weight = 2 ∧ held.merged = [⟨"w2"⟩] ∧
        held.arrivals =
          [bareSpan "a" none, bareSpan "b" (some "a"), bareSpan "" (some "c")] ∧
        2 ≤ 1 * held.weight) ∧
      ∃ held, ledger ⟨"w2"⟩ = some held ∧ held.weight = 1 ∧ held.merged = [] ∧
        held.arrivals = [bareSpan "x" none, bareSpan "y" none] ∧
        [bareSpan "x" none] = held.arrivals.take 1 := by
  intro steps e ledger
  have hsnapshot : e.snapshot = [⟨⟨"w2"⟩, [bareSpan "x" none]⟩,
      ⟨⟨"w1"⟩, [bareSpan "a" none, bareSpan "c" (some "b")]⟩] := by decide
  have hfirst : ledger ⟨"w1"⟩ = some ⟨2, [⟨"w2"⟩],
      [bareSpan "a" none, bareSpan "b" (some "a"), bareSpan "" (some "c")]⟩ := by decide
  have hsecond : ledger ⟨"w2"⟩ = some ⟨1, [], [bareSpan "x" none, bareSpan "y" none]⟩ := by decide
  have hmem : ∀ g ∈ [(⟨⟨"w2"⟩, [bareSpan "x" none]⟩ : TraceGroup),
      ⟨⟨"w1"⟩, [bareSpan "a" none, bareSpan "c" (some "b")]⟩], g ∈ e.snapshot := by
    rw [hsnapshot]
    exact fun _ hg => hg
  obtain ⟨-, hheld, -⟩ := run_capped 2 1 steps
  obtain ⟨new, hnew, -, hkept⟩ := hheld _ (hmem _ List.mem_cons_self)
  obtain ⟨old, hold, hlength, -⟩ := hheld _ (hmem _ (List.mem_cons_of_mem _ List.mem_cons_self))
  obtain rfl := Option.some.inj (hold.symm.trans hfirst)
  obtain rfl := Option.some.inj (hnew.symm.trans hsecond)
  exact ⟨hsnapshot, ⟨_, hfirst, rfl, rfl, rfl, hlength⟩, _, hsecond, rfl, rfl, rfl, hkept rfl⟩

end Engine

end TraceWeave.Grouping
