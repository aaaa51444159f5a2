import TraceWeave.Proofs.Grouping.Effect

/-!
# What a merge keeps

A merge moves the spans of one group behind those of another. Whatever the other group has seen is
left out, since it is there already; but a group has seen spans as well for which it had no room.
It withholds them, and a copy that has been kept elsewhere is lost when it is merged into such a
group.

* `Step.keeps_group_iff`: what the group of a placement keeps afterwards;
* `Step.withholds`, `withheld_run`: only a span that found its group full is ever withheld;
* `merge_keeps_iff`: what becomes of the spans of the two groups;
* `not_merge_keeps`: a span that is kept before a merge and lost with it.
-/

namespace TraceWeave.Grouping

namespace Members

/-- A span of the identifier is kept. -/
def Keeps (m : Members) (id : SpanId) : Prop :=
  ∃ t ∈ m.spans, t.id = id

instance (m : Members) (id : SpanId) : Decidable (m.Keeps id) :=
  inferInstanceAs (Decidable (∃ t ∈ m.spans, t.id = id))

/-- The identifier has been seen, but no span of it is kept. -/
def Withholds (m : Members) (id : SpanId) : Prop :=
  id ∈ m.seen ∧ ¬m.Keeps id

instance (m : Members) (id : SpanId) : Decidable (m.Withholds id) :=
  inferInstanceAs (Decidable (_ ∧ _))

theorem Coherent.seen_of_keeps {m : Members} (h : m.Coherent) {id : SpanId} (hkeeps : m.Keeps id)
    (hid : id.isUnassigned = false) : id ∈ m.seen := by
  obtain ⟨t, ht, rfl⟩ := hkeeps
  exact h.id_seen t ht hid

end Members

/-- A span of the identifier has come to a group that had no room for it. -/
def TurnedAway (steps : List (TraceId × Span)) (reports : List Report) (id : SpanId) : Prop :=
  ∃ s r, (s, r) ∈ (steps.map (·.2)).zip reports ∧ s.id = id ∧ r.outcome = .truncated

theorem turnedAway_append_singleton {steps : List (TraceId × Span)} {reports : List Report}
    (hlength : reports.length = steps.length) {wire : TraceId} {s : Span} {r : Report}
    {id : SpanId} :
    TurnedAway (steps ++ [(wire, s)]) (reports ++ [r]) id ↔
      TurnedAway steps reports id ∨ (s.id = id ∧ r.outcome = .truncated) := by
  have hzip : ((steps ++ [(wire, s)]).map (·.2)).zip (reports ++ [r]) =
      (steps.map (·.2)).zip reports ++ [(s, r)] := by
    rw [List.map_append, List.zip_append (by simp [hlength])]
    rfl
  simp only [TurnedAway, hzip, List.mem_append, List.mem_singleton, Prod.mk.injEq]
  constructor
  · rintro ⟨t, q, hold | ⟨rfl, rfl⟩, hid, houtcome⟩
    · exact .inl ⟨t, q, hold, hid, houtcome⟩
    · exact .inr ⟨hid, houtcome⟩
  · rintro (⟨t, q, hold, hid, houtcome⟩ | ⟨hid, houtcome⟩)
    · exact ⟨t, q, .inl hold, hid, houtcome⟩
    · exact ⟨s, r, .inr ⟨rfl, rfl⟩, hid, houtcome⟩

namespace Engine

variable {e e' : Engine} {wire : TraceId} {s : Span} {r : Report}

/-! ## One placement -/

theorem Step.keeps_group_iff (hstep : Step e wire s e' r) {id : SpanId} :
    (e'.members r.group).Keeps id ↔
      (e.members r.group).Keeps id ∨ (s.id = id ∧ r.outcome = .retained) ∨
        ∃ src ∈ r.mergedFrom, (e.members src).Keeps id ∧
          id ∉ (e.members r.group).seen ∧ id ≠ s.id := by
  have hself : (∃ t ∈ (if r.outcome = .retained then [s] else []), t.id = id) ↔
      s.id = id ∧ r.outcome = .retained := by
    split <;> simp [*]
  have hmoved : (∃ t ∈ (r.mergedFrom.elim [] fun src => (e.members src).spans.filter
        fun t => t.id ∉ (e.members r.group).seen ∧ t.id ≠ s.id), t.id = id) ↔
      ∃ src ∈ r.mergedFrom, (e.members src).Keeps id ∧
        id ∉ (e.members r.group).seen ∧ id ≠ s.id := by
    cases r.mergedFrom with
    | none => simp
    | some src =>
      simp only [Option.elim_some, List.mem_filter, decide_eq_true_eq, Option.mem_def,
        Option.some.injEq, exists_eq_left', Members.Keeps]
      constructor
      · rintro ⟨t, ⟨ht, hnew⟩, rfl⟩
        exact ⟨⟨t, ht, rfl⟩, hnew⟩
      · rintro ⟨⟨t, ht, rfl⟩, hnew⟩
        exact ⟨t, ⟨ht, hnew⟩, rfl⟩
  rw [← hself, ← hmoved, Members.Keeps, hstep.spans_eq, if_pos rfl]
  simp only [List.mem_append, or_and_right, exists_or, or_assoc, Members.Keeps]

/-- Other groups keep what they kept, unless they go. -/
theorem Step.keeps_other_iff (hstep : Step e wire s e' r) {key : TraceId} (hne : key ≠ r.group)
    {id : SpanId} : (e'.members key).Keeps id ↔
      (e.members key).Keeps id ∧ r.evicted ≠ some key ∧ r.mergedFrom ≠ some key := by
  rw [Members.Keeps, hstep.spans_eq, if_neg hne, ← not_or]
  split
  · next hgone => simp [hgone]
  · next hkept => simp [hkept, Members.Keeps]

/-- If a group withholds a span after a placement, some group did so before, or it is the span that
was placed and there was no room for it. -/
theorem Step.withholds (hstep : Step e wire s e' r) {key : TraceId} {id : SpanId}
    (hafter : (e'.members key).Withholds id) :
    (s.id = id ∧ r.outcome = .truncated) ∨ ∃ k, (e.members k).Withholds id := by
  obtain ⟨hseen, hlost⟩ := hafter
  have hself (hrecords : r.Records s) (hgroup : key = r.group) (hid : s.id = id) :
      r.outcome = .truncated := by
    subst hgroup
    exact (hstep.retained_or_truncated hrecords).resolve_left fun hretained =>
      hlost (hstep.keeps_group_iff.mpr (.inr (.inl ⟨hid, hretained⟩)))
  have hold (hgroup : key = r.group) : ¬(e.members r.group).Keeps id := by
    subst hgroup
    exact fun hkeeps => hlost (hstep.keeps_group_iff.mpr (.inl hkeeps))
  rcases hstep.mem_seen_iff.mp hseen with
    ⟨hrecords, hgroup, rfl | ⟨src, hsrc, htaken⟩⟩ | ⟨hbefore, hevicted, hmerged⟩
  · exact .inl ⟨rfl, hself hrecords hgroup rfl⟩
  · by_cases hkeeps : (e.members src).Keeps id
    · by_cases hid : s.id = id
      · exact .inl ⟨hid, hself hrecords hgroup hid⟩
      · -- The copy was kept, and left behind because the group had seen the span.
        have hseen : id ∈ (e.members r.group).seen := by
          by_contra hnew
          subst hgroup
          exact hlost (hstep.keeps_group_iff.mpr
            (.inr (.inr ⟨src, hsrc, hkeeps, hnew, Ne.symm hid⟩)))
        exact .inr ⟨r.group, hseen, hold hgroup⟩
    · exact .inr ⟨src, htaken, hkeeps⟩
  · refine .inr ⟨key, hbefore, ?_⟩
    by_cases hgroup : key = r.group
    · exact hgroup ▸ hold hgroup
    · exact fun hkeeps => hlost ((hstep.keeps_other_iff hgroup).mpr ⟨hkeeps, hevicted, hmerged⟩)

/-- The spans of a group after another one has been merged into it. -/
theorem Step.spans_merged (hstep : Step e wire s e' r) {src : TraceId}
    (hsrc : r.mergedFrom = some src) :
    (e'.members r.group).spans =
      (e.members r.group).spans ++ (if r.outcome = .retained then [s] else []) ++
        (e.members src).spans.filter fun t => t.id ∉ (e.members r.group).seen ∧ t.id ≠ s.id := by
  rw [hstep.spans_eq, if_pos rfl, hsrc]
  rfl

/-- Spans without an identifier are never taken for one that is there. -/
theorem Step.count_merged (hstep : Step e wire s e' r) (h : e.Sound) {src : TraceId}
    (hsrc : r.mergedFrom = some src) {t : Span} (hid : t.id.isUnassigned = true) :
    (e'.members r.group).spans.count t =
      (e.members r.group).spans.count t + (e.members src).spans.count t := by
  have hne : t.id ≠ s.id := by
    intro heq
    have hassigned := (hstep.records_of_merged hsrc).1
    rw [← heq, hid] at hassigned
    cases hassigned
  have hself : (if r.outcome = .retained then [s] else []).count t = 0 := by
    refine List.count_eq_zero.mpr fun hmem => hne ?_
    split at hmem
    · rw [List.mem_singleton.mp hmem]
    · cases hmem
  have hunseen : t.id ∉ (e.members r.group).seen := h.unseen_of_unassigned hid r.group
  rw [hstep.spans_merged hsrc, List.count_append, List.count_append, hself, Nat.add_zero,
    List.count_filter (by simp [hunseen, hne])]

/-- Which copies a merge loses: those of a span that the group has seen and does not keep, be it
from before or because the span has just been placed there without room. -/
theorem Step.keeps_merged_iff (hstep : Step e wire s e' r) (h : e.Sound) {src : TraceId}
    (hsrc : r.mergedFrom = some src) {id : SpanId} (hkeeps : (e.members src).Keeps id) :
    (e'.members r.group).Keeps id ↔
      ¬((e.members r.group).Withholds id ∨ (s.id = id ∧ r.outcome = .truncated)) := by
  have hrecords := hstep.records_of_merged hsrc
  have hfresh : s.id ∉ (e.members r.group).seen :=
    (hstep.admitted_of_records hrecords).fresh
  have hnot : ¬(e.members r.group).Keeps s.id := fun hold =>
    hfresh ((h.coherent r.group).seen_of_keeps hold hrecords.1)
  rw [hstep.keeps_group_iff]
  simp only [hsrc, Option.mem_def, Option.some.injEq, exists_eq_left', hkeeps, true_and,
    Members.Withholds]
  by_cases hid : s.id = id
  · subst hid
    rcases hstep.retained_or_truncated hrecords with houtcome | houtcome
    · simp [houtcome, hfresh]
    · simp [houtcome, hnot]
  · have hne : id ≠ s.id := Ne.symm hid
    simp only [hid, hne, false_and, false_or, or_false, ne_eq, not_false_eq_true, and_true]
    tauto

/-! ## Runs -/

/-- Only spans that were turned away are withheld. -/
theorem withheld_run (groups spans : Nat) (steps : List (TraceId × Span)) :
    ((new groups spans).run steps).2.length = steps.length ∧
      ∀ key id, (((new groups spans).run steps).1.members key).Withholds id →
        TurnedAway steps ((new groups spans).run steps).2 id := by
  refine run_history_induction (P := fun steps e reports => reports.length = steps.length ∧
    ∀ key id, (e.members key).Withholds id → TurnedAway steps reports id) ⟨rfl, ?_⟩ ?_ steps
  · rintro key id ⟨hseen, -⟩
    simp [new, members, Recency.find?] at hseen
  · rintro steps e reports wire s e' r - hstep ⟨hlength, hwithheld⟩
    refine ⟨by simp [hlength], fun key id hafter => ?_⟩
    rw [turnedAway_append_singleton hlength]
    rcases hstep.withholds hafter with hself | ⟨k, hbefore⟩
    · exact .inr hself
    · exact .inl (hwithheld k id hbefore)

/-- **What a merge keeps.** The group keeps all that it kept, then the span if there is room, then
the spans of the other group in their order, but for those that it has seen. Spans without an
identifier are all taken over. A copy that the other group kept of a span is lost exactly if the
group withholds the span, or it is the span that has just been placed and there was no room; so
only a span that was turned away at some time can be lost. -/
theorem merge_keeps_iff (groups spans : Nat) (steps : List (TraceId × Span)) (wire : TraceId)
    (s : Span) (src : TraceId)
    (hsrc : (((new groups spans).run steps).1.place wire s).2.mergedFrom = some src) :
    let e := ((new groups spans).run steps).1
    let e' := (e.place wire s).1
    let r := (e.place wire s).2
    (e'.members r.group).spans =
        (e.members r.group).spans ++ (if r.outcome = .retained then [s] else []) ++
          ((e.members src).spans.filter fun t =>
            t.id ∉ (e.members r.group).seen ∧ t.id ≠ s.id) ∧
      (∀ t : Span, t.id.isUnassigned = true → (e'.members r.group).spans.count t =
        (e.members r.group).spans.count t + (e.members src).spans.count t) ∧
      (∀ id, (e.members r.group).Keeps id → (e'.members r.group).Keeps id) ∧
      ∀ id, (e.members src).Keeps id →
        ((e'.members r.group).Keeps id ↔
          ¬((e.members r.group).Withholds id ∨ (s.id = id ∧ r.outcome = .truncated))) ∧
        (¬(e'.members r.group).Keeps id →
          TurnedAway (steps ++ [(wire, s)]) ((new groups spans).run (steps ++ [(wire, s)])).2
            id) := by
  intro e e' r
  have hsound : e.Sound := sound_run groups spans steps
  have hstep : Step e wire s e' r := step_place hsound wire s
  refine ⟨hstep.spans_merged hsrc, fun t hid => hstep.count_merged hsound hsrc hid,
    fun id hkeeps => hstep.keeps_group_iff.mpr (.inl hkeeps), fun id hkeeps => ?_⟩
  have hiff := hstep.keeps_merged_iff hsound hsrc hkeeps
  refine ⟨hiff, fun hlost => ?_⟩
  obtain ⟨hlength, hwithheld⟩ := withheld_run groups spans steps
  have happend : ((new groups spans).run (steps ++ [(wire, s)])).2 =
      ((new groups spans).run steps).2 ++ [r] := by
    rw [run_append]
    rfl
  rw [happend, turnedAway_append_singleton hlength]
  rcases not_not.mp (mt hiff.mpr hlost) with hwithholds | hself
  · exact .inl (hwithheld r.group id hwithholds)
  · exact .inr hself

/-- The group is full when the other one is merged into it, and keeps all of both. -/
theorem merge_keeps_full :
    let steps : List (TraceId × Span) :=
      [(⟨"w1"⟩, bareSpan "a" none), (⟨"w1"⟩, bareSpan "d" (some "a")),
        (⟨"w2"⟩, bareSpan "c" (some "b")), (⟨"w2"⟩, bareSpan "" (some "c"))]
    let e := ((new 10 2).run steps).1
    let (e', r) := e.place ⟨"w3"⟩ (bareSpan "b" (some "a"))
    r = { group := ⟨"w1"⟩, outcome := .truncated, mergedFrom := some ⟨"w2"⟩ } ∧
      (e.members ⟨"w2"⟩).Keeps ⟨"c"⟩ ∧ (e'.members ⟨"w1"⟩).Keeps ⟨"c"⟩ ∧
      (e'.members ⟨"w1"⟩).spans.count (bareSpan "" (some "c")) = 1 ∧
      (e'.members ⟨"w1"⟩).spans = [bareSpan "a" none, bareSpan "d" (some "a"),
        bareSpan "c" (some "b"), bareSpan "" (some "c")] := by
  intro steps e
  have hsrc : (e.place ⟨"w3"⟩ (bareSpan "b" (some "a"))).2.mergedFrom = some ⟨"w2"⟩ := by decide
  have hreport : (e.place ⟨"w3"⟩ (bareSpan "b" (some "a"))).2 =
      { group := ⟨"w1"⟩, outcome := .truncated, mergedFrom := some ⟨"w2"⟩ } := by decide
  have hkeeps : (e.members ⟨"w2"⟩).Keeps ⟨"c"⟩ := by decide
  obtain ⟨hspans, hcount, -, hmerged⟩ :=
    merge_keeps_iff 10 2 steps ⟨"w3"⟩ (bareSpan "b" (some "a")) ⟨"w2"⟩ hsrc
  exact ⟨hreport, hkeeps, (hmerged _ hkeeps).1.mpr (by decide), (hcount _ rfl).trans (by decide),
    hspans.trans (by decide)⟩

/-- A span comes to a full group and is kept by another one when it comes again. When the second
group is merged into the first, neither copy is left. -/
theorem not_merge_keeps :
    let steps : List (TraceId × Span) :=
      [(⟨"w1"⟩, bareSpan "a" none), (⟨"w1"⟩, bareSpan "x" none), (⟨"w2"⟩, bareSpan "x" none),
        (⟨"w2"⟩, bareSpan "c" (some "p"))]
    let e := ((new 10 1).run steps).1
    let (e', r) := e.place ⟨"w3"⟩ (bareSpan "p" (some "a"))
    r = { group := ⟨"w1"⟩, outcome := .truncated, mergedFrom := some ⟨"w2"⟩ } ∧
      (e.members ⟨"w2"⟩).Keeps ⟨"x"⟩ ∧ ∀ g ∈ e'.snapshot, ∀ t ∈ g.spans, t.id ≠ ⟨"x"⟩ := by
  decide

end Engine

end TraceWeave.Grouping
