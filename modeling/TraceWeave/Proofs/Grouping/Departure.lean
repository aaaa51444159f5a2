import TraceWeave.Proofs.Grouping.Joining

/-!
# Groups that go

With one placement at most one group goes, and it goes in one of two ways. It makes room, when a
span comes under a trace identifier that has no group yet and there are as many groups as there may
be. Or it is merged, when it has been waiting for the span and the parent of the span has its home
in another group. In either case nothing refers to the group afterwards.

* `Step.group_of_new`: only the trace identifier of a span can be the key of a new group;
* `Step.made_room`, `Step.folded`: the two ways, by what the engine knew before;
* `place_accounted`: what a report means in the engines that are reached.
-/

namespace TraceWeave.Grouping.Engine

variable {e e' : Engine} {wire : TraceId} {s : Span} {r : Report} {key : TraceId}

/-- There is no group of the key, and no index entry names it. -/
structure Absent (e : Engine) (key : TraceId) : Prop where
  dead : e.containsGroup key = false
  homes_ne : ∀ id, e.groupOf id ≠ some key
  awaited_ne : ∀ id, e.awaitingParent id ≠ some key

/-- The group of the key made room for a new group, which keeps the span that was placed. -/
structure MadeRoom (e : Engine) (wire : TraceId) (e' : Engine) (r : Report) (gone : TraceId) :
    Prop where
  full : e.groups.length = e.limits.groups
  live : e.containsGroup gone = true
  group_eq : r.group = wire
  group_new : e.containsGroup r.group = false
  outcome_eq : r.outcome = .retained
  mergedFrom_eq : r.mergedFrom = none
  absent : e'.Absent gone

/-- The group of the key, which was waiting for the span, was merged into the home of the span's
parent. -/
structure Folded (e : Engine) (s : Span) (e' : Engine) (r : Report) (src : TraceId) : Prop where
  live : e.containsGroup src = true
  group_live : e.containsGroup r.group = true
  ne_group : src ≠ r.group
  awaited : e.awaitingParent s.id = some src
  parent_home : ∃ p, s.parent = some p ∧ e.groupOf p = some r.group
  outcome_eq : r.outcome = .retained ∨ r.outcome = .truncated
  evicted_eq : r.evicted = none
  absent : e'.Absent src

/-! ## Nothing refers to a group that has gone -/

theorem Sound.absent (h : e.Sound) (hdead : key ∉ e.groups.keys) : e.Absent key where
  dead := by
    rw [← Bool.not_eq_true, containsGroup_iff]
    exact hdead
  homes_ne _ hhome := hdead (h.home_live hhome)
  awaited_ne _ hawaited := hdead (h.awaited_live hawaited)

theorem Step.absent (hstep : Step e wire s e' r) (h : e.Sound)
    (hgone : r.evicted = some key ∨ r.mergedFrom = some key) : e'.Absent key := by
  refine (hstep.sound h).absent fun hlive => ?_
  rcases hstep.mem_keys_iff.mp hlive with ⟨-, rfl⟩ | ⟨-, hevicted, hmerged⟩
  · exact hgone.elim hstep.evicted_ne_group hstep.merged_ne_group
  · exact hgone.elim hevicted hmerged

/-! ## Making room -/

/-- A home is there and so is a group that waits, so neither is ever made anew. -/
theorem Step.group_of_new (hstep : Step e wire s e' r) (h : e.Sound)
    (hnew : r.group ∉ e.groups.keys) : r.group = wire := by
  cases hhome : s.parent.bind e.homes.find? with
  | some home =>
    obtain ⟨p, -, hp⟩ := Option.bind_eq_some_iff.mp hhome
    exact absurd (hstep.group_of_home hhome ▸ h.home_live hp) hnew
  | none =>
    cases hid : s.id.isUnassigned with
    | true => rw [hstep.group_eq, destination, if_pos hid, hhome, Option.getD_none]
    | false =>
      cases hawaited : e.awaited.find? s.id with
      | some waiting =>
        have hgroup := hstep.group_of_awaited hid hhome hawaited
        exact absurd (hgroup ▸ h.awaited_live hawaited) hnew
      | none =>
        rw [hstep.group_eq, destination, if_neg (by simp [hid]), target, hhome, hawaited,
          Option.getD_none, Option.getD_none]

/-- No group is so small that it does not keep the span that it was made for. -/
theorem Step.retained_of_new (hstep : Step e wire s e' r) (hrecords : r.Records s)
    (hnew : r.group ∉ e.groups.keys) : r.outcome = .retained := by
  rw [(hstep.admitted_of_records hrecords).outcome_eq, members_of_not_mem hnew]
  simp [keepSpan, e.limits.spans_pos]

theorem Step.made_room (hstep : Step e wire s e' r) (h : e.Sound) {gone : TraceId}
    (hgone : r.evicted = some gone) : MadeRoom e wire e' r gone := by
  obtain ⟨hrecords, hmerged⟩ := hstep.merged_of_evicted h hgone
  have hfull : r.group ∉ e.groups.keys ∧ e.groups.keys.length = e.limits.groups := by
    by_contra hroom
    rw [hstep.evicted_eq h, if_neg fun hand => hroom hand.2] at hgone
    cases hgone
  have hdead := h.absent hfull.1
  exact {
    full := by rw [← Recency.length_keys, hfull.2]
    live := containsGroup_iff.mpr (hstep.evicted_live h hgone)
    group_eq := hstep.group_of_new h hfull.1
    group_new := hdead.dead
    outcome_eq := hstep.retained_of_new hrecords hfull.1
    mergedFrom_eq := hmerged
    absent := hstep.absent h (.inl hgone) }

/-! ## Being merged -/

theorem Step.folded (hstep : Step e wire s e' r) (h : e.Sound) {src : TraceId}
    (hsrc : r.mergedFrom = some src) : Folded e s e' r src := by
  obtain ⟨hrecords, hawaited⟩ := hstep.merged_awaited hsrc
  have hadmitted := hstep.admitted_of_records hrecords
  obtain ⟨p, hparent, hhome⟩ : ∃ p, s.parent = some p ∧ e.homes.find? p = some r.group := by
    have hbind := hadmitted.mergedFrom_eq
    rw [hsrc] at hbind
    obtain ⟨home, hhome, -⟩ :=
      Option.bind_eq_some_iff.mp (Option.filter_eq_some_iff.mp hbind.symm).1
    rw [hstep.group_of_home hhome]
    exact Option.bind_eq_some_iff.mp hhome
  exact {
    live := containsGroup_iff.mpr (hstep.merged_live h hsrc)
    group_live := containsGroup_iff.mpr (h.home_live hhome)
    ne_group := fun heq => hstep.merged_ne_group (heq ▸ hsrc)
    awaited := hawaited
    parent_home := ⟨p, hparent, hhome⟩
    outcome_eq := hstep.retained_or_truncated hrecords
    evicted_eq := hadmitted.evicted_of_merged h hsrc
    absent := hstep.absent h (.inr hsrc) }

/-! ## Runs -/

/-- **What a report means.** A group that a report names as gone made room or was merged, with all
that this takes and all that follows from it, and no report names one of either kind. A span that
comes again sends no group away; one that is recorded has its home in the group of the report. -/
theorem place_accounted (groups spans : Nat) (steps : List (TraceId × Span)) (wire : TraceId)
    (s : Span) (hid : s.id.isUnassigned = false) :
    let e := ((new groups spans).run steps).1
    let e' := (e.place wire s).1
    let r := (e.place wire s).2
    (∀ gone, r.evicted = some gone → MadeRoom e wire e' r gone) ∧
      (∀ src, r.mergedFrom = some src → Folded e s e' r src) ∧
      (r.outcome = .duplicate → r.evicted = none ∧ r.mergedFrom = none) ∧
      (r.evicted = none ∨ r.mergedFrom = none) ∧
      (r.outcome = .retained ∨ r.outcome = .truncated → e'.groupOf s.id = some r.group) := by
  intro e e' r
  have hsound : e.Sound := sound_run groups spans steps
  have hstep : Step e wire s e' r := step_place hsound wire s
  refine ⟨fun _ hgone => hstep.made_room hsound hgone, fun _ hsrc => hstep.folded hsound hsrc,
    ?_, ?_, ?_⟩
  · intro hagain
    obtain ⟨hmerged, hevicted⟩ := hstep.still fun hrecords => hrecords.2 hagain
    exact ⟨hevicted, hmerged⟩
  · cases hgone : r.evicted with
    | none => exact .inl rfl
    | some gone => exact .inr (hstep.merged_of_evicted hsound hgone).2
  · intro houtcome
    have hrecords : r.Records s := ⟨hid, by rcases houtcome with h | h <;> simp [h]⟩
    exact (hstep.admitted_of_records hrecords).homes_self

/-- Of two groups, the one that waits for a span is merged into the other one when the span comes,
or makes room when a third trace identifier does. -/
theorem place_accounted_both :
    let steps : List (TraceId × Span) :=
      [(⟨"w2"⟩, bareSpan "c" (some "b")), (⟨"w1"⟩, bareSpan "a" none)]
    let e := ((new 2 10).run steps).1
    let crowded := e.place ⟨"w3"⟩ (bareSpan "d" none)
    let linked := e.place ⟨"w3"⟩ (bareSpan "b" (some "a"))
    ((bareSpan "d" none).id.isUnassigned = false ∧ crowded.2.evicted = some ⟨"w2"⟩ ∧
        MadeRoom e ⟨"w3"⟩ crowded.1 crowded.2 ⟨"w2"⟩ ∧
        crowded.1.groupOf ⟨"d"⟩ = some ⟨"w3"⟩) ∧
      (bareSpan "b" (some "a")).id.isUnassigned = false ∧ linked.2.mergedFrom = some ⟨"w2"⟩ ∧
        Folded e (bareSpan "b" (some "a")) linked.1 linked.2 ⟨"w2"⟩ ∧
        linked.1.groupOf ⟨"b"⟩ = some ⟨"w1"⟩ := by
  intro steps e crowded linked
  have hid : (bareSpan "d" none).id.isUnassigned = false := by decide
  have hid' : (bareSpan "b" (some "a")).id.isUnassigned = false := by decide
  have hgone : crowded.2.evicted = some ⟨"w2"⟩ := by decide
  have hsrc : linked.2.mergedFrom = some ⟨"w2"⟩ := by decide
  obtain ⟨hroom, -, -, -, hhome⟩ := place_accounted 2 10 steps ⟨"w3"⟩ (bareSpan "d" none) hid
  obtain ⟨-, hfolded, -, -, hhome'⟩ :=
    place_accounted 2 10 steps ⟨"w3"⟩ (bareSpan "b" (some "a")) hid'
  exact ⟨⟨hid, hgone, hroom _ hgone, hhome (.inl (by decide))⟩, hid', hsrc, hfolded _ hsrc,
    hhome' (.inl (by decide))⟩

end TraceWeave.Grouping.Engine
