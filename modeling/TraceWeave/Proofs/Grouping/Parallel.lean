import TraceWeave.Proofs.Grouping.Effect

/-!
# Two engines side by side

What becomes of a span depends on little of what the engine knows: on what each group has seen, and
on the two indices. Two engines that agree on that much may differ in the spans that they keep, in
the order in which their groups were touched, and even in their limits. They send a span to the
same group all the same, merge the same group for it, and agree again afterwards, unless a group has
to go in one of them only.

* `Step.reports_parallel`: what is said of one span;
* `Step.parallel`: what is known afterwards.
-/

namespace TraceWeave.Grouping

/-- The reports say the same, but for whether a span that was recorded has been kept, and for the
group that had to make room. -/
structure Report.Parallel (r t : Report) : Prop where
  group_eq : r.group = t.group
  mergedFrom_eq : r.mergedFrom = t.mergedFrom
  duplicate_iff : r.outcome = .duplicate ↔ t.outcome = .duplicate
  unplaced_iff : r.outcome = .unplaced ↔ t.outcome = .unplaced

/-- The engines agree on what each group has seen and on the two indices. -/
structure Engine.Parallel (e f : Engine) : Prop where
  seen_iff : ∀ key id, id ∈ (e.members key).seen ↔ id ∈ (f.members key).seen
  groupOf_eq : ∀ id, e.groupOf id = f.groupOf id
  awaitingParent_eq : ∀ id, e.awaitingParent id = f.awaitingParent id

theorem Report.Parallel.records_iff {r t : Report} (h : r.Parallel t) (s : Span) :
    r.Records s ↔ t.Records s :=
  and_congr_right fun _ => not_congr h.duplicate_iff

namespace Engine

variable {e e' f f' : Engine} {wire : TraceId} {s : Span} {r t : Report}

theorem Parallel.homes_eq (h : e.Parallel f) : e.homes.find? = f.homes.find? :=
  funext h.groupOf_eq

theorem Parallel.awaited_eq (h : e.Parallel f) : e.awaited.find? = f.awaited.find? :=
  funext h.awaitingParent_eq

theorem Parallel.trans {g : Engine} (h : e.Parallel f) (h' : f.Parallel g) : e.Parallel g where
  seen_iff key id := (h.seen_iff key id).trans (h'.seen_iff key id)
  groupOf_eq id := (h.groupOf_eq id).trans (h'.groupOf_eq id)
  awaitingParent_eq id := (h.awaitingParent_eq id).trans (h'.awaitingParent_eq id)

/-- Where a span goes, whether it is new there and which group is merged for it is decided without a
look at the spans that are kept. -/
theorem Step.reports_parallel (hstep : Step e wire s e' r) (hstep' : Step f wire s f' t)
    (he : e.Sound) (hf : f.Sound) (h : e.Parallel f) : r.Parallel t := by
  have hgroup : r.group = t.group := by
    simp only [hstep.group_eq, hstep'.group_eq, destination, target, h.homes_eq, h.awaited_eq]
  have hduplicate : r.outcome = .duplicate ↔ t.outcome = .duplicate := by
    rw [hstep.duplicate_iff he, hstep'.duplicate_iff hf, hgroup, h.seen_iff]
  refine ⟨hgroup, ?_, hduplicate, ?_⟩
  · rw [hstep.mergedFrom_eq, hstep'.mergedFrom_eq, hgroup, h.homes_eq, h.awaited_eq]
    exact if_congr (and_congr_right fun _ => not_congr hduplicate) rfl rfl
  · rw [hstep.unplaced_iff he, hstep'.unplaced_iff hf, h.homes_eq]

/-- Engines that agree go on to agree, if the same group has to go in both. -/
theorem Step.parallel (hstep : Step e wire s e' r) (hstep' : Step f wire s f' t)
    (h : e.Parallel f) (hreports : r.Parallel t) (hevicted : r.evicted = t.evicted) :
    e'.Parallel f' := by
  refine ⟨?_, ?_, ?_⟩
  · intro key id
    rw [hstep.mem_seen_iff, hstep'.mem_seen_iff]
    simp only [hreports.records_iff, hreports.group_eq, hreports.mergedFrom_eq, hevicted,
      h.seen_iff]
  · intro id
    rw [groupOf, groupOf, hstep.homes_eq, hstep'.homes_eq]
    simp only [hreports.records_iff, hreports.group_eq, hreports.mergedFrom_eq, hevicted,
      h.seen_iff, h.homes_eq]
  · intro id
    rw [awaitingParent, awaitingParent, hstep.awaited_eq, hstep'.awaited_eq]
    simp only [hreports.records_iff, hreports.group_eq, hreports.mergedFrom_eq, hevicted,
      h.seen_iff, h.homes_eq, h.awaited_eq]

end Engine

end TraceWeave.Grouping
