import TraceWeave.Proofs.Grouping.Counting

/-!
# What a placement leaves alone

At most one group goes with a placement, and what is known of the others stays, as far as the spans
are concerned that only they have seen. A span that several groups have seen is a matter of all of
them: a group that has to go takes with it every entry that waits for a span that it has seen,
whichever group waits there, and a group that is merged brings along every span that it has seen,
whichever group is the home of it.

A span that is left out changes nothing but a counter. One that its group has seen before touches
this group and is counted, but it is no longer awaited if its parent has no home: the way to its
group has ended the waiting already when the group turns out to have seen it.

* `Step.homes_spared`, `Step.awaited_spared`, `Step.spans_spared`: entries and groups that stay;
* `place_spares`: what a placement leaves of them in the engines that are reached, with
  `not_place_spares` for the two exceptions;
* `Repeated.awaited_iff`: when a repetition leaves the waiting entries alone;
* `place_refused`: what is left by a span that is left out or comes again, with
  `not_place_refused` for one that is awaited.
-/

namespace TraceWeave.Grouping

/-- The group of the key neither had to go nor was merged. -/
def Report.Spares (r : Report) (key : TraceId) : Prop :=
  r.evicted ≠ some key ∧ r.mergedFrom ≠ some key

instance (r : Report) (key : TraceId) : Decidable (r.Spares key) :=
  inferInstanceAs (Decidable (_ ∧ _))

namespace Engine

variable {e e' : Engine} {wire : TraceId} {s : Span} {r : Report} {id : SpanId} {key : TraceId}

/-! ## Other groups -/

theorem Step.homes_spared (hstep : Step e wire s e' r) (hne : id ≠ s.id)
    (hhome : e.homes.find? id = some key) (hspared : r.Spares key)
    (hunseen : ∀ src ∈ r.mergedFrom, id ∉ (e.members src).seen) :
    e'.homes.find? id = some key := by
  have hstays : ¬(r.Records s ∧ (id = s.id ∨ ∃ src ∈ r.mergedFrom, id ∈ (e.members src).seen)) := by
    rintro ⟨-, hself | ⟨src, hsrc, hseen⟩⟩
    · exact hne hself
    · exact hunseen src hsrc hseen
  rw [hstep.homes_eq, if_neg hstays, hhome, Option.filter_some_pos (by simpa using hspared.1)]

/-- A group that stays waits on, unless the group that had to go has seen the span. -/
theorem Step.awaited_spared (hstep : Step e wire s e' r) (hne : id ≠ s.id)
    (hparent : s.parent ≠ some id) (hawaited : e.awaited.find? id = some key)
    (hspared : r.Spares key) :
    e'.awaited.find? id =
      if ∃ gone ∈ r.evicted, id ∈ (e.members gone).seen then none else some key := by
  rw [hstep.awaited_eq, if_neg fun hself => hne hself.1, if_neg fun hnew => hparent hnew.2,
    Option.or_none, hawaited]
  split
  · next hgone =>
    obtain ⟨gone, hgone, hseen⟩ := hgone
    rw [Option.filter_some_neg]
    · rfl
    · rw [decide_eq_false_iff_not]
      exact fun hkept => hkept.2 gone hgone hseen
  · next hkept =>
    rw [Option.filter_some_pos, Option.map_some, if_neg hspared.2]
    rw [decide_eq_true_eq]
    exact ⟨hspared.1, fun gone hgone hseen => hkept ⟨gone, hgone, hseen⟩⟩

theorem Step.live_spared (hstep : Step e wire s e' r) (hlive : key ∈ e.groups.keys)
    (hspared : r.Spares key) : key ∈ e'.groups.keys :=
  hstep.mem_keys_iff.mpr (.inr ⟨hlive, hspared⟩)

theorem Step.spans_spared (hstep : Step e wire s e' r) (hne : key ≠ r.group)
    (hspared : r.Spares key) : (e'.members key).spans = (e.members key).spans := by
  rw [hstep.spans_eq, if_neg hne, if_neg (not_or.mpr hspared)]

/-- **A placement leaves other groups alone.** Let a group neither have to go nor be merged. A span
that has its home there keeps it, unless it is the one that is placed or the group that is merged
has seen it. An entry that waits there, for neither this span nor its parent, stays exactly if the
group that has to go has not seen the span that is awaited. And if the group is not the one of the
placement either, it is there with the same spans as before. -/
theorem place_spares (groups spans : Nat) (steps : List (TraceId × Span)) (wire : TraceId)
    (s : Span) :
    let e := ((new groups spans).run steps).1
    let e' := (e.place wire s).1
    let r := (e.place wire s).2
    ∀ key, r.Spares key →
      (∀ id, id ≠ s.id → e.groupOf id = some key →
        (∀ src ∈ r.mergedFrom, id ∉ (e.members src).seen) → e'.groupOf id = some key) ∧
      (∀ id, id ≠ s.id → s.parent ≠ some id → e.awaitingParent id = some key →
        e'.awaitingParent id =
          if ∃ gone ∈ r.evicted, id ∈ (e.members gone).seen then none else some key) ∧
      (key ≠ r.group → e.containsGroup key = true →
        e'.containsGroup key = true ∧ (e'.members key).spans = (e.members key).spans) := by
  intro e e' r key hspared
  have hstep : Step e wire s e' r := step_place (sound_run groups spans steps) wire s
  refine ⟨?_, ?_, ?_⟩
  · intro id hne hhome hunseen
    exact hstep.homes_spared hne hhome hspared hunseen
  · intro id hne hparent hawaited
    exact hstep.awaited_spared hne hparent hawaited hspared
  · intro hne hlive
    exact ⟨containsGroup_iff.mpr (hstep.live_spared (containsGroup_iff.mp hlive) hspared),
      hstep.spans_spared hne hspared⟩

/-- Of three groups the first has to go, or the second is merged into the third; in either case the
group that remains is left alone, but for its waiting for a span that the first one has seen. -/
theorem place_spares_third :
    let steps : List (TraceId × Span) :=
      [(⟨"w1"⟩, bareSpan "x" none), (⟨"w1"⟩, bareSpan "b" (some "p")),
        (⟨"w2"⟩, bareSpan "x" none), (⟨"w2"⟩, bareSpan "c" (some "x")),
        (⟨"w2"⟩, bareSpan "y" (some "q")), (⟨"w3"⟩, bareSpan "a" none)]
    let e := ((new 3 10).run steps).1
    let crowded := e.place ⟨"w4"⟩ (bareSpan "z" none)
    let linked := e.place ⟨"w4"⟩ (bareSpan "q" (some "a"))
    (crowded.2.evicted = some ⟨"w1"⟩ ∧ crowded.2.Spares ⟨"w2"⟩ ∧
        crowded.1.groupOf ⟨"c"⟩ = some ⟨"w2"⟩ ∧
        crowded.1.awaitingParent ⟨"q"⟩ = some ⟨"w2"⟩ ∧
        e.awaitingParent ⟨"x"⟩ = some ⟨"w2"⟩ ∧ crowded.1.awaitingParent ⟨"x"⟩ = none ∧
        crowded.1.containsGroup ⟨"w2"⟩ = true ∧
        (crowded.1.members ⟨"w2"⟩).spans = (e.members ⟨"w2"⟩).spans) ∧
      linked.2.mergedFrom = some ⟨"w2"⟩ ∧ linked.2.Spares ⟨"w1"⟩ ∧
        linked.1.groupOf ⟨"b"⟩ = some ⟨"w1"⟩ ∧ linked.1.awaitingParent ⟨"p"⟩ = some ⟨"w1"⟩ ∧
        linked.1.containsGroup ⟨"w1"⟩ = true ∧
        (linked.1.members ⟨"w1"⟩).spans = (e.members ⟨"w1"⟩).spans := by
  intro steps e crowded linked
  have hcrowded : crowded.2.evicted = some ⟨"w1"⟩ ∧ crowded.2.Spares ⟨"w2"⟩ := by decide
  have hlinked : linked.2.mergedFrom = some ⟨"w2"⟩ ∧ linked.2.Spares ⟨"w1"⟩ := by decide
  have hwaiting : e.awaitingParent ⟨"x"⟩ = some ⟨"w2"⟩ := by decide
  obtain ⟨hhomes, hawaited, hmembers⟩ :=
    place_spares 3 10 steps ⟨"w4"⟩ (bareSpan "z" none) ⟨"w2"⟩ hcrowded.2
  obtain ⟨hhomes', hawaited', hmembers'⟩ :=
    place_spares 3 10 steps ⟨"w4"⟩ (bareSpan "q" (some "a")) ⟨"w1"⟩ hlinked.2
  have hstays := hmembers (by decide) (by decide)
  have hstays' := hmembers' (by decide) (by decide)
  exact ⟨⟨hcrowded.1, hcrowded.2, hhomes ⟨"c"⟩ (by decide) (by decide) (by decide),
      (hawaited ⟨"q"⟩ (by decide) (by decide) (by decide)).trans (by decide), hwaiting,
      (hawaited ⟨"x"⟩ (by decide) (by decide) hwaiting).trans (by decide), hstays⟩,
    hlinked.1, hlinked.2, hhomes' ⟨"b"⟩ (by decide) (by decide) (by decide),
    (hawaited' ⟨"p"⟩ (by decide) (by decide) (by decide)).trans (by decide), hstays'⟩

/-- The first group has to go and takes with it that the second one waits for a span that both have
seen. Then the second group is merged into the third, and a span that it has seen moves there from
the fourth, where it has its home. -/
theorem not_place_spares :
    let steps : List (TraceId × Span) :=
      [(⟨"w1"⟩, bareSpan "x" none), (⟨"w2"⟩, bareSpan "x" none), (⟨"w2"⟩, bareSpan "c" (some "x")),
        (⟨"w2"⟩, bareSpan "y" (some "q")), (⟨"w3"⟩, bareSpan "a" none)]
    let e := ((new 3 10).run steps).1
    let crowded := e.place ⟨"w4"⟩ (bareSpan "y" (some "q"))
    let linked := crowded.1.place ⟨"w5"⟩ (bareSpan "q" (some "a"))
    (crowded.2.evicted = some ⟨"w1"⟩ ∧ crowded.2.Spares ⟨"w2"⟩ ∧
        e.awaitingParent ⟨"x"⟩ = some ⟨"w2"⟩ ∧ crowded.1.awaitingParent ⟨"x"⟩ = none) ∧
      linked.2.mergedFrom = some ⟨"w2"⟩ ∧ linked.2.Spares ⟨"w4"⟩ ∧
        crowded.1.groupOf ⟨"y"⟩ = some ⟨"w4"⟩ ∧ linked.1.groupOf ⟨"y"⟩ = some ⟨"w3"⟩ := by
  decide

/-! ## Spans that are refused -/

/-- Nothing has happened but that the group of the key was touched and a repetition was counted. The
entries that wait are left open. -/
structure Retouched (e e' : Engine) (key : TraceId) : Prop where
  limits_eq : e'.limits = e.limits
  keys_eq : e'.groups.keys = key :: e.groups.keys.filter (· ≠ key)
  live_eq : ∀ k, e'.containsGroup k = e.containsGroup k
  members_eq : ∀ k, e'.members k = e.members k
  groupOf_eq : ∀ id, e'.groupOf id = e.groupOf id
  counters_eq : e'.counters = { e.counters with duplicates := e.counters.duplicates + 1 }

theorem Step.repeated_of_duplicate (hstep : Step e wire s e' r)
    (houtcome : r.outcome = .duplicate) : Repeated e wire s e' r := by
  cases hstep with
  | unplaced hstep =>
    rw [hstep.report_eq] at houtcome
    cases houtcome
  | followed hstep =>
    rw [hstep.report_eq] at houtcome
    exact absurd houtcome (keepSpan_ne_duplicate _ _ _)
  | repeated hstep => exact hstep
  | admitted hstep => exact absurd houtcome hstep.records.2

theorem Step.engine_of_unplaced (hstep : Step e wire s e' r) (houtcome : r.outcome = .unplaced) :
    e' = { e with counters := { e.counters with unplaced := e.counters.unplaced + 1 } } := by
  cases hstep with
  | unplaced hstep => exact hstep.engine_eq
  | followed hstep => exact absurd houtcome hstep.outcome_ne
  | repeated hstep =>
    rw [hstep.report_eq] at houtcome
    cases houtcome
  | admitted hstep => exact absurd houtcome hstep.outcome_ne

theorem Repeated.retouched (hstep : Repeated e wire s e' r)
    (hcounters : e'.counters = e.counters.after e.groups.keys r) : Retouched e e' r.group where
  limits_eq := hstep.limits_eq
  keys_eq := hstep.keys_eq
  live_eq := by
    intro k
    rw [Bool.eq_iff_iff, containsGroup_iff, containsGroup_iff, hstep.mem_keys]
  members_eq := hstep.members_eq
  groupOf_eq := by
    intro id
    rw [groupOf, groupOf, hstep.homes_eq]
  counters_eq := by
    rw [hcounters, hstep.report_eq]
    simp [Counters.after, Counters.count, hstep.live]

/-- A repetition leaves the waiting for its span alone, unless its parent has no home. -/
theorem Repeated.awaited_iff (hstep : Repeated e wire s e' r) :
    e'.awaited.find? s.id = e.awaited.find? s.id ↔
      e.awaited.find? s.id = none ∨ (s.parent.bind e.homes.find?).isSome = true := by
  rw [hstep.awaited_eq]
  cases s.parent.bind e.homes.find? with
  | none => simp [eq_comm]
  | some home => simp

/-- **A span that is refused changes next to nothing.** If it is left out, nothing but the counter
of such spans changes. If its group has seen it before, that group is touched and the repetition is
counted; all else stays, the entries included that wait for other spans. The entry that waits for
the span itself stays exactly if there is none or the parent of the span has a home. -/
theorem place_refused (groups spans : Nat) (steps : List (TraceId × Span)) (wire : TraceId)
    (s : Span) :
    let e := ((new groups spans).run steps).1
    let e' := (e.place wire s).1
    let r := (e.place wire s).2
    (r.outcome = .unplaced →
        e' = { e with counters := { e.counters with unplaced := e.counters.unplaced + 1 } }) ∧
      (r.outcome = .duplicate →
        Retouched e e' r.group ∧ (∀ id ≠ s.id, e'.awaitingParent id = e.awaitingParent id) ∧
          (e'.awaitingParent s.id = e.awaitingParent s.id ↔
            e.awaitingParent s.id = none ∨
              ∃ p home, s.parent = some p ∧ e.groupOf p = some home)) := by
  intro e e' r
  have hstep : Step e wire s e' r := step_place (sound_run groups spans steps) wire s
  refine ⟨hstep.engine_of_unplaced, fun houtcome => ?_⟩
  have hrepeated := hstep.repeated_of_duplicate houtcome
  have hparent : (s.parent.bind e.homes.find?).isSome = true ↔
      ∃ p home, s.parent = some p ∧ e.groupOf p = some home := by
    rw [Option.isSome_iff_exists]
    simp only [Option.bind_eq_some_iff, groupOf]
    exact exists_comm
  refine ⟨hrepeated.retouched (counters_place e wire s), ?_, ?_⟩
  · intro id hne
    rw [awaitingParent, awaitingParent, hrepeated.awaited_eq, if_neg fun hself => hne hself.1]
  · rw [← hparent]
    exact hrepeated.awaited_iff

/-- A span without an identifier whose parent is unknown, and a child that comes again while a group
waits for it. -/
theorem place_refused_child :
    let steps : List (TraceId × Span) :=
      [(⟨"w1"⟩, bareSpan "a" none), (⟨"w1"⟩, bareSpan "b" (some "a")),
        (⟨"w1"⟩, bareSpan "c" (some "b"))]
    let e := ((new 10 10).run steps).1
    let stray := e.place ⟨"w2"⟩ (bareSpan "" (some "z"))
    let again := e.place ⟨"w2"⟩ (bareSpan "b" (some "a"))
    (stray.2.outcome = .unplaced ∧
        stray.1 = { e with counters := { e.counters with unplaced := 1 } }) ∧
      again.2.outcome = .duplicate ∧ Retouched e again.1 ⟨"w1"⟩ ∧
        again.1.awaitingParent ⟨"a"⟩ = e.awaitingParent ⟨"a"⟩ ∧
        e.awaitingParent ⟨"b"⟩ = some ⟨"w1"⟩ ∧ again.1.awaitingParent ⟨"b"⟩ = some ⟨"w1"⟩ := by
  intro steps e stray again
  have hstray : stray.2.outcome = .unplaced := by decide
  have hagain : again.2.outcome = .duplicate := by decide
  have hwaiting : e.awaitingParent ⟨"b"⟩ = some ⟨"w1"⟩ := by decide
  have hleft := (place_refused 10 10 steps ⟨"w2"⟩ (bareSpan "" (some "z"))).1 hstray
  obtain ⟨hretouched, hothers, hself⟩ :=
    (place_refused 10 10 steps ⟨"w2"⟩ (bareSpan "b" (some "a"))).2 hagain
  have hstays := hself.mpr (.inr ⟨⟨"a"⟩, ⟨"w1"⟩, rfl, by decide⟩)
  exact ⟨⟨hstray, hleft⟩, hagain, hretouched, hothers ⟨"a"⟩ (by decide), hwaiting,
    hstays.trans hwaiting⟩

/-- A root comes again that its group waits for, on behalf of a child. It is a repetition, and the
group waits no longer. -/
theorem not_place_refused :
    let steps : List (TraceId × Span) :=
      [(⟨"w1"⟩, bareSpan "x" none), (⟨"w1"⟩, bareSpan "c" (some "x"))]
    let e := ((new 10 10).run steps).1
    let (e', r) := e.place ⟨"w2"⟩ (bareSpan "x" none)
    r = { group := ⟨"w1"⟩, outcome := .duplicate } ∧
      e.awaitingParent ⟨"x"⟩ = some ⟨"w1"⟩ ∧ e'.awaitingParent ⟨"x"⟩ = none := by
  decide

end Engine

end TraceWeave.Grouping
