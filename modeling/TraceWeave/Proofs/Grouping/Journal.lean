import TraceWeave.Proofs.Grouping.Linking
import TraceWeave.Proofs.Grouping.Reports

/-!
# The reports as a journal

A reader that sees nothing but the spans and their reports can keep a journal: each span goes to
the group of its report, follows that group when a later report says that it was merged, and is
lost when a later report says that the group had to go. If no identifier comes twice, the journal
says all there is to say about the engine: the group of every span, what every group has seen, and
which spans every group keeps.

* `Report.carry`: what a later report says of a span;
* `Step.faithful`: a placement changes the engine as its report changes the journal;
* `run_journaled`: the journal of a run and the engine after it.
-/

namespace TraceWeave.Grouping

/-- Where a later report leaves a span that was in a group: with the group that its own was merged
into, or nowhere if its own had to go. -/
def Report.carry (r : Report) : Option TraceId → Option TraceId
  | none => none
  | some key => if r.evicted = some key then none else some (r.moved key)

/-- A span of a run, what was reported of it, and the group in which the later reports leave it. -/
structure Entry where
  span : Span
  outcome : Outcome
  home : Option TraceId
deriving DecidableEq, Repr

namespace Entry

/-- A span as its own report leaves it. -/
def of (s : Span) (r : Report) : Entry where
  span := s
  outcome := r.outcome
  home := if r.outcome = .unplaced then none else some r.group

/-- A span as a later report leaves it. -/
def follow (x : Entry) (r : Report) : Entry :=
  { x with home := r.carry x.home }

end Entry

/-- The spans of a run in the order in which they came. -/
abbrev Journal := List Entry

namespace Journal

/-- With another span and its report. -/
def enter (journal : Journal) (s : Span) (r : Report) : Journal :=
  journal.map (·.follow r) ++ [.of s r]

/-- The journal of the spans of a run and their reports. -/
def ofRun (steps : List (TraceId × Span)) (reports : List Report) : Journal :=
  ((steps.map (·.2)).zip reports).foldl (fun journal (s, r) => enter journal s r) []

/-- The spans that were kept when they came and have not been lost since, by group. -/
def kept (journal : Journal) (key : TraceId) : List Span :=
  (journal.filter fun x => x.outcome = .retained ∧ x.home = some key).map (·.span)

theorem ofRun_append_singleton {steps : List (TraceId × Span)} {reports : List Report}
    (hlength : reports.length = steps.length) (wire : TraceId) (s : Span) (r : Report) :
    ofRun (steps ++ [(wire, s)]) (reports ++ [r]) = (ofRun steps reports).enter s r := by
  rw [ofRun, List.map_append, List.zip_append (by simp [hlength]), List.foldl_append]
  rfl

theorem kept_append (first second : Journal) (key : TraceId) :
    kept (first ++ second) key = first.kept key ++ second.kept key := by
  simp [kept]

theorem kept_of (s : Span) (r : Report) (key : TraceId) :
    kept [.of s r] key = if r.outcome = .retained ∧ r.group = key then [s] else [] := by
  cases houtcome : r.outcome <;> by_cases hkey : r.group = key <;>
    simp [kept, Entry.of, houtcome, hkey]

theorem kept_follow (journal : Journal) (r : Report) (key : TraceId) :
    kept (journal.map (·.follow r)) key =
      (journal.filter fun x => x.outcome = .retained ∧ r.carry x.home = some key).map
        (·.span) := by
  rw [kept, List.filter_map, List.map_map]
  rfl

end Journal

/-! ## Reports that leave a span where it is -/

namespace Report

variable {r : Report} {home : Option TraceId} {key : TraceId}

theorem carry_still (hmerged : r.mergedFrom = none) (hevicted : r.evicted = none)
    (home : Option TraceId) : r.carry home = home := by
  cases home with
  | none => rfl
  | some key => simp [carry, moved, hmerged, hevicted]

theorem carry_eq_some_iff :
    r.carry home = some key ↔ ∃ k, home = some k ∧ r.evicted ≠ some k ∧ r.moved k = key := by
  cases home with
  | none => simp [carry]
  | some k => simp [carry]

/-- A span is in a group that is not the one of the report, if it was there and the group is
neither of those that went. -/
theorem carry_other_iff (hne : key ≠ r.group) :
    r.carry home = some key ↔ home = some key ∧ r.evicted ≠ some key ∧ r.mergedFrom ≠ some key := by
  rw [carry_eq_some_iff]
  constructor
  · rintro ⟨k, rfl, hevicted, hmoved⟩
    by_cases hmerged : r.mergedFrom = some k
    · rw [moved_merged hmerged] at hmoved
      exact absurd hmoved.symm hne
    · rw [moved_other hmerged] at hmoved
      subst hmoved
      exact ⟨rfl, hevicted, hmerged⟩
  · rintro ⟨rfl, hevicted, hmerged⟩
    exact ⟨key, rfl, hevicted, moved_other hmerged⟩

end Report

theorem Journal.enter_still {r : Report} (hmerged : r.mergedFrom = none)
    (hevicted : r.evicted = none) (journal : Journal) (s : Span) :
    journal.enter s r = journal ++ [.of s r] := by
  have hfollow : ∀ x ∈ journal, x.follow r = x := by
    intro x _
    rw [Entry.follow, Report.carry_still hmerged hevicted]
  rw [enter, List.map_congr_left hfollow, List.map_id']

/-- Of two conditions that exclude each other, the items of either are those of one and those of
the other. -/
theorem filter_or_perm {α : Type} {p q : α → Bool} {l : List α}
    (h : ∀ a ∈ l, p a = true → q a = false) :
    (l.filter fun a => p a || q a).Perm (l.filter p ++ l.filter q) := by
  have hsplit := List.filter_append_perm p (l.filter fun a => p a || q a)
  rw [List.filter_filter, List.filter_filter] at hsplit
  have hfirst : (l.filter fun a => p a && (p a || q a)) = l.filter p :=
    List.filter_congr fun a _ => by cases p a <;> simp
  have hsecond : (l.filter fun a => !p a && (p a || q a)) = l.filter q := by
    refine List.filter_congr fun a ha => ?_
    cases hp : p a with
    | true => simp [h a ha hp]
    | false => simp
  rw [hfirst, hsecond] at hsplit
  exact hsplit.symm

namespace Engine

variable {e e' : Engine} {wire : TraceId} {s : Span} {r : Report} {journal : Journal}

/-- The engine is as the journal says. -/
structure Faithful (journal : Journal) (e : Engine) : Prop where
  /-- A span is in the group in which the reports have left it. -/
  groupOf_eq : ∀ x ∈ journal, x.span.id.isUnassigned = false → e.groupOf x.span.id = x.home
  /-- That group has seen it, and no other one has. -/
  seen_iff : ∀ x ∈ journal, x.span.id.isUnassigned = false →
    ∀ key, x.span.id ∈ (e.members key).seen ↔ x.home = some key
  seen_entered : ∀ {id key}, id ∈ (e.members key).seen → ∃ x ∈ journal, x.span.id = id
  /-- A group keeps the spans that were kept when they came and were left there. -/
  spans_perm : ∀ key, (e.members key).spans.Perm (journal.kept key)

/-! ## Spans without an identifier -/

theorem Faithful.enter_unassigned (hfaithful : Faithful journal e)
    (hid : s.id.isUnassigned = true) (hmerged : r.mergedFrom = none) (hevicted : r.evicted = none)
    (hhomes : e'.homes = e.homes) (hseen : ∀ key, (e'.members key).seen = (e.members key).seen)
    (hspans : ∀ key, (e'.members key).spans =
      (e.members key).spans ++ Journal.kept [.of s r] key) :
    Faithful (journal.enter s r) e' := by
  rw [Journal.enter_still hmerged hevicted]
  have hold {x : Entry} (hx : x ∈ journal ++ [.of s r])
      (hassigned : x.span.id.isUnassigned = false) : x ∈ journal := by
    rcases List.mem_append.mp hx with hx | hnew
    · exact hx
    · obtain rfl := List.mem_singleton.mp hnew
      rw [Entry.of, hid] at hassigned
      cases hassigned
  refine ⟨?_, ?_, ?_, ?_⟩
  · intro x hx hassigned
    rw [groupOf, hhomes]
    exact hfaithful.groupOf_eq x (hold hx hassigned) hassigned
  · intro x hx hassigned key
    rw [hseen]
    exact hfaithful.seen_iff x (hold hx hassigned) hassigned key
  · intro id key hmem
    rw [hseen] at hmem
    obtain ⟨x, hx, hid⟩ := hfaithful.seen_entered hmem
    exact ⟨x, List.mem_append_left _ hx, hid⟩
  · intro key
    rw [hspans, Journal.kept_append]
    exact (hfaithful.spans_perm key).append_right _

theorem Unplaced.faithful (hstep : Unplaced e wire s e' r) (hfaithful : Faithful journal e) :
    Faithful (journal.enter s r) e' := by
  obtain ⟨hid, -, rfl, rfl⟩ := hstep
  refine hfaithful.enter_unassigned hid rfl rfl rfl (fun _ => rfl) ?_
  intro key
  rw [Journal.kept_of, if_neg (by simp), List.append_nil]
  rfl

theorem Followed.faithful (hstep : Followed e s e' r) (hfaithful : Faithful journal e) :
    Faithful (journal.enter s r) e' := by
  obtain ⟨hmerged, hevicted⟩ := hstep.still
  refine hfaithful.enter_unassigned hstep.unassigned hmerged hevicted hstep.homes_eq
    hstep.seen_eq ?_
  intro key
  have houtcome : r.outcome = (keepSpan e.limits (e.members r.group) s).2 := by
    rw [hstep.report_eq]
  rw [Journal.kept_of]
  by_cases hgroup : key = r.group
  · rw [hgroup, hstep.members_self, spans_keepSpan_append, houtcome]
    simp
  · rw [hstep.members_other key hgroup, if_neg fun hnew => hgroup hnew.2.symm, List.append_nil]

/-! ## Spans with an identifier -/

/-- The identifier has come to no group before. -/
theorem Faithful.unseen (hfaithful : Faithful journal e) (hnew : ∀ x ∈ journal, x.span.id ≠ s.id)
    (key : TraceId) : s.id ∉ (e.members key).seen := by
  intro hmem
  obtain ⟨x, hx, hid⟩ := hfaithful.seen_entered hmem
  exact hnew x hx hid

/-- A group sees only what no other group has seen. -/
theorem Faithful.seen_unique (hfaithful : Faithful journal e) (h : e.Sound) {id : SpanId}
    {key key' : TraceId} (hmem : id ∈ (e.members key).seen) (hmem' : id ∈ (e.members key').seen) :
    key = key' := by
  obtain ⟨x, hx, rfl⟩ := hfaithful.seen_entered hmem
  have hassigned := h.seen_assigned hmem
  have hhome := (hfaithful.seen_iff x hx hassigned key).mp hmem
  have hhome' := (hfaithful.seen_iff x hx hassigned key').mp hmem'
  exact Option.some.inj (hhome.symm.trans hhome')

namespace Admitted

/-- A span is in the group of the report, if it was there or in the group that was merged. -/
theorem carry_group_iff (hstep : Admitted e wire s e' r) (h : e.Sound) {home : Option TraceId} :
    r.carry home = some r.group ↔ home = some r.group ∨ ∃ src ∈ r.mergedFrom, home = some src := by
  rw [Report.carry_eq_some_iff]
  constructor
  · rintro ⟨k, rfl, -, hmoved⟩
    by_cases hmerged : r.mergedFrom = some k
    · exact .inr ⟨k, hmerged, rfl⟩
    · rw [Report.moved_other hmerged] at hmoved
      exact .inl (congrArg some hmoved)
  · rintro (rfl | ⟨src, hsrc, rfl⟩)
    · exact ⟨r.group, rfl, hstep.evicted_ne_group, r.moved_group⟩
    · refine ⟨src, rfl, ?_, Report.moved_merged hsrc⟩
      rw [hstep.evicted_of_merged h hsrc]
      simp

section Earlier

variable {id : SpanId} {home : Option TraceId}

theorem homes_carried (hstep : Admitted e wire s e' r) (h : e.Sound) (hne : id ≠ s.id)
    (hhome : e.homes.find? id = home) (hseen : ∀ key, id ∈ (e.members key).seen ↔ home = some key) :
    e'.homes.find? id = r.carry home := by
  rw [hstep.homes_other id hne]
  split
  · next htaken =>
    obtain ⟨src, hsrc, htaken⟩ := htaken
    exact ((hstep.carry_group_iff h).mpr (.inr ⟨src, hsrc, (hseen src).mp htaken⟩)).symm
  · next htaken =>
    rw [hhome]
    cases home with
    | none => rfl
    | some key =>
      have hmerged : r.mergedFrom ≠ some key :=
        fun hsrc => htaken ⟨key, hsrc, (hseen key).mpr rfl⟩
      simp [Report.carry, Report.moved_other hmerged, Option.filter_some]

theorem seen_carried (hstep : Admitted e wire s e' r) (h : e.Sound) (hne : id ≠ s.id)
    (hseen : ∀ key, id ∈ (e.members key).seen ↔ home = some key) (key : TraceId) :
    id ∈ (e'.members key).seen ↔ r.carry home = some key := by
  by_cases hgroup : key = r.group
  · subst hgroup
    rw [hstep.seen_self, hstep.carry_group_iff h]
    simp [hne, hseen]
  · rw [hstep.members_other key hgroup, Report.carry_other_iff hgroup, ← hseen]
    split
    · next hgone => simp only [List.not_mem_nil, false_iff]; tauto
    · next hgone => tauto

end Earlier

/-- Nothing of the group that is merged is known in the group that it is merged into. -/
theorem absorbed_all (hstep : Admitted e wire s e' r) (h : e.Sound)
    (hfaithful : Faithful journal e) (hnew : ∀ x ∈ journal, x.span.id ≠ s.id) {src : TraceId}
    (hsrc : r.mergedFrom = some src) :
    ((e.members src).spans.filter fun t => t.id ∉ ((e.members r.group).add e.limits s).seen) =
      (e.members src).spans := by
  rw [List.filter_eq_self]
  intro t ht
  rw [decide_eq_true_eq, Members.seen_add, List.mem_append, List.mem_singleton]
  cases hid : t.id.isUnassigned with
  | true =>
    rintro (hold | hself)
    · rw [h.seen_assigned hold] at hid
      cases hid
    · rw [hself, hstep.assigned] at hid
      cases hid
  | false =>
    have hmem : t.id ∈ (e.members src).seen := (h.coherent src).id_seen t ht hid
    rintro (hold | hself)
    · have hgroup : src = r.group := hfaithful.seen_unique h hmem hold
      exact hstep.merged_ne_group (hgroup ▸ hsrc)
    · exact hfaithful.unseen hnew src (hself ▸ hmem)

theorem spans_self (hstep : Admitted e wire s e' r) (h : e.Sound) (hfaithful : Faithful journal e)
    (hnew : ∀ x ∈ journal, x.span.id ≠ s.id) :
    (e'.members r.group).spans =
      (e.members r.group).spans ++ (if r.outcome = .retained then [s] else []) ++
        r.mergedFrom.elim [] fun src => (e.members src).spans := by
  have hadd : ((e.members r.group).add e.limits s).spans =
      (e.members r.group).spans ++ if r.outcome = .retained then [s] else [] := by
    rw [hstep.outcome_eq]
    exact spans_keepSpan_append _ _ _
  rw [hstep.members_self, ← hadd]
  cases hmerged : r.mergedFrom with
  | none => simp
  | some src =>
    simp only [Option.elim_some, Members.absorb, hstep.absorbed_all h hfaithful hnew hmerged]

theorem kept_follow_group (hstep : Admitted e wire s e' r) (h : e.Sound) (journal : Journal) :
    (Journal.kept (journal.map (·.follow r)) r.group).Perm
      (journal.kept r.group ++ r.mergedFrom.elim [] journal.kept) := by
  rw [Journal.kept_follow]
  simp only [hstep.carry_group_iff h]
  cases hmerged : r.mergedFrom with
  | none => simp [Journal.kept]
  | some src =>
    have hne : src ≠ r.group := fun hgroup => hstep.merged_ne_group (hgroup ▸ hmerged)
    have hperm := filter_or_perm (l := journal)
      (p := fun x => x.outcome = .retained ∧ x.home = some r.group)
      (q := fun x => x.outcome = .retained ∧ x.home = some src) (by
        intro x _ hx
        rw [decide_eq_true_eq] at hx
        simp [hx.2, Ne.symm hne])
    have hmap := hperm.map (·.span)
    rw [List.map_append] at hmap
    refine .trans (.of_eq ?_) hmap
    congr 1
    apply List.filter_congr
    intro x _
    simp only [Option.mem_def, Option.some.injEq, exists_eq_left', ← Bool.decide_or, ← and_or_left]

theorem kept_follow_other {key : TraceId} (hne : key ≠ r.group) (journal : Journal) :
    Journal.kept (journal.map (·.follow r)) key =
      if r.evicted = some key ∨ r.mergedFrom = some key then [] else journal.kept key := by
  rw [Journal.kept_follow]
  simp only [Report.carry_other_iff hne]
  split
  · next hgone =>
    rw [List.map_eq_nil_iff, List.filter_eq_nil_iff]
    intro x _ hx
    rw [decide_eq_true_eq] at hx
    tauto
  · next hkept =>
    rw [not_or] at hkept
    simp [Journal.kept, hkept]

theorem faithful (hstep : Admitted e wire s e' r) (h : e.Sound) (hfaithful : Faithful journal e)
    (hnew : ∀ x ∈ journal, x.span.id ≠ s.id) : Faithful (journal.enter s r) e' := by
  have hentered {x : Entry} (hx : x ∈ journal.enter s r) :
      (∃ y ∈ journal, y.follow r = x) ∨ x = .of s r := by
    rcases List.mem_append.mp hx with hold | hlast
    · exact .inl (List.mem_map.mp hold)
    · exact .inr (List.mem_singleton.mp hlast)
  have hhome : (Entry.of s r).home = some r.group := if_neg hstep.outcome_ne
  refine ⟨?_, ?_, ?_, ?_⟩
  · intro x hx hassigned
    rcases hentered hx with ⟨y, hy, rfl⟩ | rfl
    · exact hstep.homes_carried h (hnew y hy) (hfaithful.groupOf_eq y hy hassigned)
        (hfaithful.seen_iff y hy hassigned)
    · rw [hhome]
      exact hstep.homes_self
  · intro x hx hassigned key
    rcases hentered hx with ⟨y, hy, rfl⟩ | rfl
    · exact hstep.seen_carried h (hnew y hy) (hfaithful.seen_iff y hy hassigned) key
    · rw [hhome, Option.some.injEq]
      constructor
      · intro hmem
        rcases hstep.seen_cases hmem with ⟨-, rfl⟩ | hold | ⟨src, -, -, htaken⟩
        · rfl
        · exact absurd hold (hfaithful.unseen hnew key)
        · exact absurd htaken (hfaithful.unseen hnew src)
      · rintro rfl
        exact hstep.seen_self.mpr (.inr (.inl rfl))
  · intro id key hmem
    have hbefore : (∃ k, id ∈ (e.members k).seen) → ∃ x ∈ journal.enter s r, x.span.id = id := by
      rintro ⟨k, hold⟩
      obtain ⟨y, hy, hid⟩ := hfaithful.seen_entered hold
      exact ⟨y.follow r, List.mem_append_left _ (List.mem_map_of_mem hy), hid⟩
    rcases hstep.seen_cases hmem with ⟨rfl, -⟩ | hold | ⟨src, -, -, htaken⟩
    · exact ⟨.of s r, List.mem_append_right _ (List.mem_singleton.mpr rfl), rfl⟩
    · exact hbefore ⟨key, hold⟩
    · exact hbefore ⟨src, htaken⟩
  · intro key
    rw [Journal.enter, Journal.kept_append, Journal.kept_of]
    by_cases hgroup : key = r.group
    · subst hgroup
      have hmoved : (r.mergedFrom.elim [] fun src => (e.members src).spans).Perm
          (r.mergedFrom.elim [] journal.kept) := by
        cases r.mergedFrom with
        | none => exact .refl _
        | some src => exact hfaithful.spans_perm src
      have hold := (hfaithful.spans_perm r.group).append hmoved
      rw [hstep.spans_self h hfaithful hnew, List.append_assoc]
      simp only [and_true]
      -- The span stands before those of the group that is merged, and last in the journal.
      refine (List.perm_append_comm.append_left _).trans ?_
      rw [← List.append_assoc]
      exact (hold.trans (hstep.kept_follow_group h journal).symm).append_right _
    · rw [hstep.members_other key hgroup, kept_follow_other hgroup,
        if_neg fun hself : _ ∧ r.group = key => hgroup hself.2.symm, List.append_nil]
      split
      · exact .refl _
      · exact hfaithful.spans_perm key

end Admitted

/-- A placement changes the engine as its report changes the journal, if the identifier is new. -/
theorem Step.faithful (hstep : Step e wire s e' r) (h : e.Sound) (hfaithful : Faithful journal e)
    (hnew : s.id.isUnassigned = false → ∀ x ∈ journal, x.span.id ≠ s.id) :
    Faithful (journal.enter s r) e' := by
  cases hstep with
  | unplaced hstep => exact hstep.faithful hfaithful
  | followed hstep => exact hstep.faithful hfaithful
  | repeated hstep =>
    exact absurd hstep.seen (hfaithful.unseen (hnew hstep.assigned) r.group)
  | admitted hstep => exact hstep.faithful h hfaithful (hnew hstep.assigned)

/-! ## Runs -/

theorem faithful_new (groups spans : Nat) : Faithful [] (new groups spans) where
  groupOf_eq := by simp
  seen_iff := by simp
  seen_entered := by simp [new, members, Recency.find?]
  spans_perm := by simp [new, members, Recency.find?, Journal.kept]

/-- What the journal of a run says, once it names all spans. -/
structure Journaled (steps : List (TraceId × Span)) (e : Engine) (reports : List Report) :
    Prop where
  length_eq : reports.length = steps.length
  spans_eq : (Journal.ofRun steps reports).map (·.span) = steps.map (·.2)
  faithful : ((placed steps).map (·.id)).Nodup → Faithful (Journal.ofRun steps reports) e

theorem Step.journaled (hstep : Step e wire s e' r) (h : e.Sound)
    {steps : List (TraceId × Span)} {reports : List Report} (hrun : Journaled steps e reports) :
    Journaled (steps ++ [(wire, s)]) e' (reports ++ [r]) := by
  have happend := Journal.ofRun_append_singleton hrun.length_eq wire s r
  refine ⟨by simp [hrun.length_eq], ?_, ?_⟩
  · rw [happend, Journal.enter, List.map_append, List.map_append, List.map_map, ← hrun.spans_eq]
    rfl
  · intro hnodup
    rw [placed_append, List.map_append, List.nodup_append] at hnodup
    rw [happend]
    refine hstep.faithful h (hrun.faithful hnodup.1) ?_
    intro hid x hx heq
    have hspan : x.span ∈ steps.map (·.2) := hrun.spans_eq ▸ List.mem_map_of_mem hx
    have hold : x.span ∈ placed steps :=
      List.mem_filter.mpr ⟨hspan, by rw [heq, hid]; rfl⟩
    exact hnodup.2.2 x.span.id (List.mem_map_of_mem hold) s.id (by simp [placed, hid]) heq

/-- **The reports are a faithful journal.** If no identifier comes twice, the journal that is kept
from the reports of a run names every span of it, and it says in which group each span is, what
every group has seen, and which spans it keeps. -/
theorem run_journaled (groups spans : Nat) (steps : List (TraceId × Span))
    (hnodup : ((placed steps).map (·.id)).Nodup) :
    let journal := Journal.ofRun steps ((new groups spans).run steps).2
    journal.map (·.span) = steps.map (·.2) ∧
      Faithful journal ((new groups spans).run steps).1 := by
  have hrun := run_history_induction (P := Journaled)
    ⟨rfl, rfl, fun _ => faithful_new groups spans⟩
    (fun _ _ _ _ _ _ _ hsound hstep hrun => hstep.journaled hsound hrun) steps
  exact ⟨hrun.spans_eq, hrun.faithful hnodup⟩

/-- A group takes in another one, is full by then, and has to go, with the spans of both; a group
of the key that was merged comes again. -/
theorem run_journaled_lost :
    let steps : List (TraceId × Span) :=
      [(⟨"w1"⟩, bareSpan "a" none), (⟨"w3"⟩, bareSpan "" (some "a")),
        (⟨"w2"⟩, bareSpan "d" (some "c")), (⟨"w2"⟩, bareSpan "c" (some "a")),
        (⟨"w2"⟩, bareSpan "x" none), (⟨"w3"⟩, bareSpan "y" none)]
    let e := ((new 2 2).run steps).1
    let journal := Journal.ofRun steps ((new 2 2).run steps).2
    ((placed steps).map (·.id)).Nodup ∧
      journal.map (·.span) = steps.map (·.2) ∧ Faithful journal e ∧
      journal.map (·.outcome) =
        [.retained, .retained, .retained, .truncated, .retained, .retained] ∧
      journal.map (·.home) = [none, none, none, none, some ⟨"w2"⟩, some ⟨"w3"⟩] := by
  intro steps e journal
  have hnodup : ((placed steps).map (·.id)).Nodup := by decide
  obtain ⟨hspans, hfaithful⟩ := run_journaled 2 2 steps hnodup
  exact ⟨hnodup, hspans, hfaithful, by decide, by decide⟩

end Engine

end TraceWeave.Grouping
