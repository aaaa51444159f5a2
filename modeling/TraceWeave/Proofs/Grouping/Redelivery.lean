import TraceWeave.Proofs.Grouping.Invariant

/-!
# Redelivery

The same span may be sent twice in a row. Whether it comes to its group again is decided by the
group alone to which the second delivery goes. The first delivery ends the waiting for the span, so
the second one finds either the home of its parent or the trace identifier under which it was sent:

* `Step.target_again`: where the second delivery goes;
* `redelivered_iff`: the second delivery changes nothing exactly if that is where the first one
  went;
* `not_redelivered`: a span for which a group was waiting is kept a second time.
-/

namespace TraceWeave.Grouping.Engine

variable {e e' : Engine} {wire : TraceId} {s : Span} {r : Report}

/-! ## After a delivery -/

theorem Step.seen_self (hstep : Step e wire s e' r) (hid : s.id.isUnassigned = false) :
    s.id ∈ (e'.members r.group).seen := by
  cases hstep with
  | unplaced hstep => simp [hstep.unassigned] at hid
  | followed hstep => simp [hstep.unassigned] at hid
  | repeated hstep =>
    rw [hstep.members_eq]
    exact hstep.seen
  | admitted hstep => exact hstep.seen_self.mpr (.inr (.inl rfl))

/-- The group of a span is the home of its parent, if the parent has one afterwards. -/
theorem Step.parent_home (hstep : Step e wire s e' r) (hid : s.id.isUnassigned = false)
    {key : TraceId} (hhome : s.parent.bind e'.homes.find? = some key) : key = r.group := by
  cases hstep with
  | unplaced hstep => simp [hstep.unassigned] at hid
  | followed hstep => simp [hstep.unassigned] at hid
  | repeated hstep =>
    rw [hstep.homes_eq] at hhome
    rw [hstep.group_eq, target_of_home hhome]
  | admitted hstep =>
    obtain ⟨p, hp, hfind⟩ := Option.bind_eq_some_iff.mp hhome
    by_cases hself : p = s.id
    · rw [hself, hstep.homes_self] at hfind
      exact (Option.some.inj hfind).symm
    · rw [hstep.homes_other p hself] at hfind
      split at hfind
      · exact (Option.some.inj hfind).symm
      · -- The parent had this home before, so the span has followed it there.
        obtain ⟨hbefore, -⟩ := Option.filter_eq_some_iff.mp hfind
        have hbind : s.parent.bind e.homes.find? = some key := by rw [hp]; exact hbefore
        rw [hstep.group_eq, target_of_home hbind]

/-- No group waits any longer for a span whose parent has no home. -/
theorem Step.unawaited (hstep : Step e wire s e' r) (hid : s.id.isUnassigned = false)
    (horphan : s.parent.bind e'.homes.find? = none) : e'.awaited.find? s.id = none := by
  cases hstep with
  | unplaced hstep => simp [hstep.unassigned] at hid
  | followed hstep => simp [hstep.unassigned] at hid
  | repeated hstep =>
    rw [hstep.homes_eq] at horphan
    rw [hstep.awaited_eq, if_pos ⟨rfl, horphan⟩]
  | admitted hstep => exact hstep.awaited_self

theorem Step.target_again (hstep : Step e wire s e' r) (hid : s.id.isUnassigned = false) :
    e'.target wire s = if (s.parent.bind e'.homes.find?).isSome then r.group else wire := by
  cases hhome : s.parent.bind e'.homes.find? with
  | none => simp [target, hhome, hstep.unawaited hid hhome]
  | some key => simp [target_of_home hhome, hstep.parent_home hid hhome]

/-! ## The second delivery -/

/-- A delivery that changes nothing: it is reported as a duplicate in the group of the first one,
and the groups and the spans that they keep stay. -/
structure Absorbed (before after : Engine) (first second : Report) : Prop where
  report_eq : second =
    { group := first.group, outcome := .duplicate, mergedFrom := none, evicted := none }
  live_eq : ∀ key, after.containsGroup key = before.containsGroup key
  spans_eq : ∀ key, (after.members key).spans = (before.members key).spans

theorem Repeated.absorbed (hstep : Repeated e wire s e' r) {first : Report}
    (hgroup : r.group = first.group) : Absorbed e e' first r where
  report_eq := by rw [hstep.report_eq, hgroup]
  live_eq := by
    intro key
    rw [Bool.eq_iff_iff, containsGroup_iff, containsGroup_iff, hstep.mem_keys]
  spans_eq := by
    intro key
    rw [hstep.members_eq]

/-- A second delivery changes nothing if it goes where the first one went. -/
theorem Step.absorbed_iff (hstep : Step e wire s e' r) (h : e.Sound)
    (hid : s.id.isUnassigned = false) :
    Absorbed e' (e'.place wire s).1 r (e'.place wire s).2 ↔ e'.target wire s = r.group := by
  have hagain := step_place (hstep.sound h) wire s
  constructor
  · intro habsorbed
    have hgroup : (e'.place wire s).2.group = r.group := by rw [habsorbed.report_eq]
    cases hagain with
    | unplaced hagain => simp [hagain.unassigned] at hid
    | followed hagain => simp [hagain.unassigned] at hid
    | repeated hagain => rw [← hagain.group_eq, hgroup]
    | admitted hagain => rw [← hagain.group_eq, hgroup]
  · intro htarget
    cases hagain with
    | unplaced hagain => simp [hagain.unassigned] at hid
    | followed hagain => simp [hagain.unassigned] at hid
    | repeated hagain => exact hagain.absorbed (hagain.group_eq.trans htarget)
    | admitted hagain =>
      have hfresh := hagain.fresh
      rw [hagain.group_eq, htarget] at hfresh
      exact absurd (hstep.seen_self hid) hfresh

/-- **When a second delivery changes nothing**: exactly if the first one went to the group of the
trace identifier under which the span is sent, or the parent of the span has a home after it. -/
theorem redelivered_iff (groups spans : Nat) (steps : List (TraceId × Span)) (wire : TraceId)
    (s : Span) (hid : s.id.isUnassigned = false) :
    let e := ((new groups spans).run steps).1
    let first := e.place wire s
    let second := first.1.place wire s
    Absorbed first.1 second.1 first.2 second.2 ↔
      first.2.group = wire ∨ ∃ p, s.parent = some p ∧ (first.1.groupOf p).isSome = true := by
  intro e first second
  have hsound : e.Sound := sound_run groups spans steps
  have hstep := step_place hsound wire s
  have hresident : (∃ p, s.parent = some p ∧ (first.1.groupOf p).isSome = true) ↔
      (s.parent.bind first.1.homes.find?).isSome = true := by
    cases s.parent <;> simp [groupOf]
  rw [hstep.absorbed_iff hsound hid, hstep.target_again hid, hresident]
  split
  · next hhome => exact iff_of_true rfl (.inr hhome)
  · next horphan =>
    rw [or_iff_left horphan]
    exact eq_comm

/-- A child that comes again while its parent is there changes nothing. -/
theorem redelivered_child :
    let e := ((new 10 10).run [(⟨"w1"⟩, bareSpan "a" none)]).1
    let first := e.place ⟨"w2"⟩ (bareSpan "b" (some "a"))
    let second := first.1.place ⟨"w2"⟩ (bareSpan "b" (some "a"))
    (bareSpan "b" (some "a")).id.isUnassigned = false ∧
      Absorbed first.1 second.1 first.2 second.2 := by
  have hid : (bareSpan "b" (some "a")).id.isUnassigned = false := by decide
  exact ⟨hid, (redelivered_iff 10 10 _ ⟨"w2"⟩ _ hid).mpr (.inr ⟨⟨"a"⟩, rfl, by decide⟩)⟩

/-- A root that comes after its child goes to the child's group first and to a group of its own
when it comes again, so that both keep it. -/
theorem not_redelivered :
    let e := ((new 10 10).run [(⟨"w1"⟩, bareSpan "b" (some "a"))]).1
    let first := e.place ⟨"w2"⟩ (bareSpan "a" none)
    let second := first.1.place ⟨"w2"⟩ (bareSpan "a" none)
    ¬Absorbed first.1 second.1 first.2 second.2 ∧
      second.2 = { group := ⟨"w2"⟩, outcome := .retained } ∧
      (second.1.members ⟨"w1"⟩).spans.map (·.id) = [⟨"b"⟩, ⟨"a"⟩] ∧
      (second.1.members ⟨"w2"⟩).spans.map (·.id) = [⟨"a"⟩] := by
  intro e first second
  have hsecond : second.2 = { group := ⟨"w2"⟩, outcome := .retained } := by decide
  refine ⟨?_, hsecond, by decide, by decide⟩
  intro habsorbed
  have hreport := habsorbed.report_eq
  rw [hsecond] at hreport
  cases congrArg Report.outcome hreport

end TraceWeave.Grouping.Engine
