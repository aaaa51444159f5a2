import TraceWeave.Proofs.Grouping.Effect

/-!
# Which spans can be found

A group that has seen a span keeps saying so as long as it is there, but the index holds one home
for each span. A span that was sent again under another trace identifier has been seen by two
groups, and its home is the later one. When that one has to go, the home goes with it, although the
earlier group still has the span: the span is stranded, and its children no longer join it.

* `Step.findable_iff`: a placement leaves a span findable unless it strands the span;
* `Resident.joined`: the children of a span that is found join it;
* `resident_iff`: throughout a run a span is found in whatever group has seen it, exactly if no
  placement strands it;
* `not_resident`: a span that is stranded, with its group still there.
-/

namespace TraceWeave.Grouping.Engine

variable {e e' : Engine} {wire : TraceId} {s : Span} {r : Report} {id : SpanId}

/-- The span is found: it has a home, and that group is there and has seen it. -/
def Resident (e : Engine) (id : SpanId) : Prop :=
  ∃ home, e.groupOf id = some home ∧ e.containsGroup home = true ∧ id ∈ (e.members home).seen

/-- If any group has seen the span, it is found. -/
def Findable (e : Engine) (id : SpanId) : Prop :=
  ∀ key, e.containsGroup key = true → id ∈ (e.members key).seen → e.Resident id

/-- Placing a span takes the home of another one, which some other group has seen as well. -/
def Strands (e : Engine) (wire : TraceId) (s : Span) (id : SpanId) : Prop :=
  id ≠ s.id ∧ ∃ gone, (e.place wire s).2.evicted = some gone ∧ e.groupOf id = some gone ∧
    ∃ key ≠ gone, id ∈ (e.members key).seen

/-! ## One placement -/

/-- A home is never wrong, so a span is found if it has one. -/
theorem Sound.resident_iff_home (h : e.Sound) :
    e.Resident id ↔ ∃ home, e.homes.find? id = some home := by
  constructor
  · rintro ⟨home, hhome, -⟩
    exact ⟨home, hhome⟩
  · rintro ⟨home, hhome⟩
    exact ⟨home, hhome, containsGroup_iff.mpr (h.home_live hhome), h.home_seen hhome⟩

theorem Sound.findable_iff_home (h : e.Sound) :
    e.Findable id ↔ ∀ key, id ∈ (e.members key).seen → ∃ home, e.homes.find? id = some home := by
  constructor
  · intro hfindable key hseen
    exact h.resident_iff_home.mp
      (hfindable key (containsGroup_iff.mpr (mem_keys_of_mem_seen hseen)) hseen)
  · intro hhome key _ hseen
    exact h.resident_iff_home.mpr (hhome key hseen)

/-- **When a span stays findable**: unless its home goes and another group has seen it. -/
theorem Step.findable_iff (hstep : Step e wire s e' r) (h : e.Sound) (hbefore : e.Findable id) :
    e'.Findable id ↔
      ¬(id ≠ s.id ∧ ∃ gone, r.evicted = some gone ∧ e.groupOf id = some gone ∧
        ∃ key ≠ gone, id ∈ (e.members key).seen) := by
  rw [h.findable_iff_home] at hbefore
  rw [(hstep.sound h).findable_iff_home]
  constructor
  · rintro hafter ⟨hne, gone, hgone, hhome, key, hkey, hseen⟩
    obtain ⟨-, hmerged⟩ := hstep.merged_of_evicted h hgone
    have hseen' : id ∈ (e'.members key).seen := by
      refine hstep.mem_seen_iff.mpr (.inr ⟨hseen, ?_, by simp [hmerged]⟩)
      rw [hgone]
      exact fun heq => hkey (Option.some.inj heq).symm
    obtain ⟨home, hhome'⟩ := hafter key hseen'
    rw [groupOf] at hhome
    simp [hstep.homes_eq, hmerged, hne, hhome, hgone, Option.filter_some] at hhome'
  · intro hkept key hseen'
    by_cases hmoved : r.Records s ∧ (id = s.id ∨ ∃ src ∈ r.mergedFrom, id ∈ (e.members src).seen)
    · exact ⟨r.group, by rw [hstep.homes_eq, if_pos hmoved]⟩
    · -- The group had seen the span before, so the span had a home, and keeps it.
      rcases hstep.mem_seen_iff.mp hseen' with ⟨hrecords, -, hnew⟩ | ⟨hseen, hevicted, -⟩
      · exact absurd ⟨hrecords, hnew⟩ hmoved
      · obtain ⟨home, hhome⟩ := hbefore key hseen
        refine ⟨home, ?_⟩
        rw [hstep.homes_eq, if_neg hmoved, hhome, Option.filter_some_pos]
        rw [decide_eq_true_eq]
        intro hgone
        have hne : id ≠ s.id := fun heq =>
          hmoved ⟨(hstep.merged_of_evicted h hgone).1, .inl heq⟩
        have hkey : key ≠ home := fun heq => hevicted (heq ▸ hgone)
        exact hkept ⟨hne, home, hgone, hhome, key, hkey, hseen⟩

/-- A child of a span that is found joins the group of its parent, which still has the parent
then. -/
theorem Resident.joined (hresident : e.Resident id) (h : e.Sound) (wire : TraceId) {c : Span}
    (hparent : c.parent = some id) :
    e.groupOf id = some (e.place wire c).2.group ∧
      id ∈ ((e.place wire c).1.members (e.place wire c).2.group).seen := by
  obtain ⟨home, hhome, -, hseen⟩ := hresident
  have hstep := step_place h wire c
  have hbind : c.parent.bind e.homes.find? = some home := by rw [hparent]; exact hhome
  have hgroup : (e.place wire c).2.group = home := hstep.group_of_home hbind
  have hevicted : (e.place wire c).2.evicted = none :=
    hstep.evicted_of_live h (hgroup ▸ mem_keys_of_mem_seen hseen)
  rw [hgroup]
  refine ⟨hhome, hstep.mem_seen_iff.mpr (.inr ⟨hseen, by simp [hevicted], ?_⟩)⟩
  rw [hstep.mergedFrom_eq, hgroup]
  split <;> simp

/-! ## Runs -/

theorem forall_prefix_concat_iff {α : Type} {l : List α} {x : α} {P : List α → Prop} :
    (∀ before, before <+: l ++ [x] → P before) ↔
      (∀ before, before <+: l → P before) ∧ P (l ++ [x]) := by
  simp only [List.prefix_concat_iff, or_imp, forall_and, forall_eq]
  exact and_comm

theorem forall_step_concat_iff {α : Type} {l : List α} {x : α} {P : List α → α → Prop} :
    (∀ before step, before ++ [step] <+: l ++ [x] → P before step) ↔
      (∀ before step, before ++ [step] <+: l → P before step) ∧ P l x := by
  constructor
  · intro hall
    exact ⟨fun before step hpre => hall before step (hpre.trans (List.prefix_append _ _)),
      hall l x (List.prefix_refl _)⟩
  · rintro ⟨hearlier, hlast⟩ before step hpre
    rcases List.prefix_concat_iff.mp hpre with heq | hpre
    · obtain ⟨rfl, hstep⟩ := List.append_inj' heq rfl
      obtain rfl := List.singleton_inj.mp hstep
      exact hlast
    · exact hearlier before step hpre

/-- **Which spans are found throughout a run.** A span is found in every state in which some group
has seen it, exactly if no placement of the run strands it; and as long as it is found, its
children join the group that has it. -/
theorem resident_iff (groups spans : Nat) (steps : List (TraceId × Span)) (id : SpanId) :
    ((∀ before, before <+: steps → ((new groups spans).run before).1.Findable id) ↔
      ∀ before step, before ++ [step] <+: steps →
        ¬((new groups spans).run before).1.Strands step.1 step.2 id) ∧
    ∀ before, before <+: steps → ((new groups spans).run before).1.Resident id →
      ∀ wire c, c.parent = some id →
        let (after, report) := ((new groups spans).run before).1.place wire c
        ((new groups spans).run before).1.groupOf id = some report.group ∧
          id ∈ (after.members report.group).seen := by
  refine ⟨?_, fun before _ hresident wire c hparent =>
    hresident.joined (sound_run groups spans before) wire hparent⟩
  induction steps using List.reverseRecOn with
  | nil => simp [Findable, new, run, containsGroup, Recency.find?]
  | append_singleton steps step ih =>
    obtain ⟨wire, s⟩ := step
    rw [forall_prefix_concat_iff, forall_step_concat_iff, ← ih, run_append]
    refine and_congr_right fun hfindable => ?_
    have hsound := sound_run groups spans steps
    exact (step_place hsound wire s).findable_iff hsound
      (hfindable steps (List.prefix_refl _))

/-- A span is sent under two trace identifiers, and the second group has to go. The first one still
keeps the span, but the span has no home, and its child stays with the trace identifier under which
it was sent. -/
theorem not_resident :
    let steps : List (TraceId × Span) :=
      [(⟨"w1"⟩, bareSpan "x" none), (⟨"w2"⟩, bareSpan "x" none), (⟨"w1"⟩, bareSpan "y" none),
        (⟨"w3"⟩, bareSpan "z" none)]
    let e := ((new 2 10).run steps).1
    e.containsGroup ⟨"w1"⟩ = true ∧ ⟨"x"⟩ ∈ (e.members ⟨"w1"⟩).seen ∧
      bareSpan "x" none ∈ (e.members ⟨"w1"⟩).spans ∧ ¬e.Resident ⟨"x"⟩ ∧
      (e.place ⟨"w3"⟩ (bareSpan "c" (some "x"))).2.group = ⟨"w3"⟩ := by
  intro steps e
  have hhomeless : e.groupOf ⟨"x"⟩ = none := by decide
  refine ⟨by decide, by decide, by decide, ?_, by decide⟩
  rintro ⟨home, hhome, -⟩
  rw [hhomeless] at hhome
  cases hhome

end TraceWeave.Grouping.Engine
