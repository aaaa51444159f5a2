import TraceWeave.Proofs.Grouping.Reports

/-!
# Placements as functions of what is known

A placement can do four things to an engine, and `Step` has a case for each of them. Here the four
are put together: the report of a placement, and all that is known afterwards, are given by one
equation each, in terms of what the engine knew before and of the report itself. Statements that
compare two runs need no other description of a placement.

* `Step.group_eq`, `Step.outcome_eq`, `Step.mergedFrom_eq`: the report, with `Step.evicted_eq`;
* `Step.mem_keys_iff`, `Step.mem_seen_iff`, `Step.spans_eq`: the groups afterwards;
* `Step.homes_eq`, `Step.awaited_eq`: the indices afterwards.
-/

namespace TraceWeave.Grouping

/-- The span was recorded: it has an identifier that its group had not seen. -/
def Report.Records (r : Report) (s : Span) : Prop :=
  s.id.isUnassigned = false ∧ r.outcome ≠ .duplicate

instance (r : Report) (s : Span) : Decidable (r.Records s) :=
  inferInstanceAs (Decidable (_ ∧ _))

namespace Engine

variable {e e' : Engine} {wire : TraceId} {s : Span} {r : Report}

/-! ## The four cases -/

theorem keepSpan_ne_duplicate (limits : Limits) (m : Members) (s : Span) :
    (keepSpan limits m s).2 ≠ .duplicate := by
  unfold keepSpan
  split <;> simp

theorem Unplaced.not_records (hstep : Unplaced e wire s e' r) : ¬r.Records s := by
  simp [Report.Records, hstep.unassigned]

theorem Followed.not_records (hstep : Followed e s e' r) : ¬r.Records s := by
  simp [Report.Records, hstep.unassigned]

theorem Repeated.not_records (hstep : Repeated e wire s e' r) : ¬r.Records s := by
  rw [hstep.report_eq]
  simp [Report.Records]

theorem Admitted.records (hstep : Admitted e wire s e' r) : r.Records s := by
  refine ⟨hstep.assigned, ?_⟩
  rw [hstep.outcome_eq]
  exact keepSpan_ne_duplicate _ _ _

theorem Step.admitted_of_records (hstep : Step e wire s e' r) (hrecords : r.Records s) :
    Admitted e wire s e' r := by
  cases hstep with
  | unplaced hstep => exact absurd hrecords hstep.not_records
  | followed hstep => exact absurd hrecords hstep.not_records
  | repeated hstep => exact absurd hrecords hstep.not_records
  | admitted hstep => exact hstep

/-- Only a span that is recorded moves other groups. -/
theorem Step.still (hstep : Step e wire s e' r) (hnot : ¬r.Records s) :
    r.mergedFrom = none ∧ r.evicted = none := by
  cases hstep with
  | unplaced hstep =>
    rw [hstep.report_eq]
    exact ⟨rfl, rfl⟩
  | followed hstep => exact hstep.still
  | repeated hstep =>
    rw [hstep.report_eq]
    exact ⟨rfl, rfl⟩
  | admitted hstep => exact absurd hstep.records hnot

theorem Step.records_of_merged (hstep : Step e wire s e' r) {src : TraceId}
    (hsrc : r.mergedFrom = some src) : r.Records s := by
  by_contra hnot
  rw [(hstep.still hnot).1] at hsrc
  cases hsrc

theorem Step.records_of_evicted (hstep : Step e wire s e' r) {gone : TraceId}
    (hgone : r.evicted = some gone) : r.Records s := by
  by_contra hnot
  rw [(hstep.still hnot).2] at hgone
  cases hgone

/-- No group goes for a span that has no identifier. -/
theorem Step.still_of_unassigned (hstep : Step e wire s e' r) (hid : s.id.isUnassigned = true) :
    r.mergedFrom = none ∧ r.evicted = none := by
  refine hstep.still ?_
  simp [Report.Records, hid]

theorem Step.still_of_unplaced (hstep : Step e wire s e' r) (hunplaced : r.outcome = .unplaced) :
    r.mergedFrom = none ∧ r.evicted = none :=
  hstep.still fun hrecords => (hstep.admitted_of_records hrecords).outcome_ne hunplaced

/-- The group of the span itself never goes. -/
theorem Step.merged_ne_group (hstep : Step e wire s e' r) : r.mergedFrom ≠ some r.group :=
  fun hsrc => (hstep.admitted_of_records (hstep.records_of_merged hsrc)).merged_ne_group hsrc

theorem Step.evicted_ne_group (hstep : Step e wire s e' r) : r.evicted ≠ some r.group :=
  fun hgone => (hstep.admitted_of_records (hstep.records_of_evicted hgone)).evicted_ne_group hgone

theorem Sound.unseen_of_unassigned (h : e.Sound) {id : SpanId} (hid : id.isUnassigned = true)
    (key : TraceId) : id ∉ (e.members key).seen := by
  intro hseen
  have hassigned := h.seen_assigned hseen
  rw [hid] at hassigned
  cases hassigned

/-! ## The report -/

/-- The group that a span goes to, or the trace identifier under which it was sent, if it has to be
left out. -/
def destination (e : Engine) (wire : TraceId) (s : Span) : TraceId :=
  if s.id.isUnassigned then (s.parent.bind e.homes.find?).getD wire else e.target wire s

theorem Step.group_eq (hstep : Step e wire s e' r) : r.group = e.destination wire s := by
  cases hstep with
  | unplaced hstep => rw [destination, if_pos hstep.unassigned, hstep.orphan, hstep.report_eq]; rfl
  | followed hstep => rw [destination, if_pos hstep.unassigned, hstep.parent_home]; rfl
  | repeated hstep => rw [destination, if_neg (by simp [hstep.assigned]), hstep.group_eq]
  | admitted hstep => rw [destination, if_neg (by simp [hstep.assigned]), hstep.group_eq]

theorem Step.group_of_home (hstep : Step e wire s e' r) {home : TraceId}
    (hhome : s.parent.bind e.homes.find? = some home) : r.group = home := by
  rw [hstep.group_eq, destination, hhome, target_of_home hhome]
  simp

theorem Step.outcome_eq (hstep : Step e wire s e' r) (h : e.Sound) :
    r.outcome =
      if s.id.isUnassigned = true ∧ s.parent.bind e.homes.find? = none then .unplaced
      else if s.id ∈ (e.members r.group).seen then .duplicate
      else (keepSpan e.limits (e.members r.group) s).2 := by
  cases hstep with
  | unplaced hstep =>
    rw [if_pos ⟨hstep.unassigned, hstep.orphan⟩, hstep.report_eq]
  | followed hstep =>
    have hunseen := h.unseen_of_unassigned hstep.unassigned r.group
    have houtcome : r.outcome = (keepSpan e.limits (e.members r.group) s).2 := by
      rw [hstep.report_eq]
    rw [if_neg (by simp [hstep.parent_home]), if_neg hunseen, houtcome]
  | repeated hstep =>
    rw [if_neg (by simp [hstep.assigned]), if_pos hstep.seen, hstep.report_eq]
  | admitted hstep =>
    rw [if_neg (by simp [hstep.assigned]), if_neg hstep.fresh, hstep.outcome_eq]

theorem Step.unplaced_iff (hstep : Step e wire s e' r) (h : e.Sound) :
    r.outcome = .unplaced ↔
      s.id.isUnassigned = true ∧ s.parent.bind e.homes.find? = none := by
  rw [hstep.outcome_eq h]
  split
  · next horphan => exact iff_of_true rfl horphan
  · next hplaced =>
    refine iff_of_false ?_ hplaced
    split
    · simp
    · exact keepSpan_ne_unplaced _ _ _

theorem Step.duplicate_iff (hstep : Step e wire s e' r) (h : e.Sound) :
    r.outcome = .duplicate ↔ s.id ∈ (e.members r.group).seen := by
  rw [hstep.outcome_eq h]
  split
  · next horphan => exact iff_of_false (by simp) (h.unseen_of_unassigned horphan.1 r.group)
  · split
    · next hseen => exact iff_of_true rfl hseen
    · next hfresh => exact iff_of_false (keepSpan_ne_duplicate _ _ _) hfresh

theorem Step.mergedFrom_eq (hstep : Step e wire s e' r) :
    r.mergedFrom =
      if r.Records s then
        ((s.parent.bind e.homes.find?).bind fun _ => e.awaited.find? s.id).filter (· ≠ r.group)
      else none := by
  by_cases hrecords : r.Records s
  · rw [if_pos hrecords, (hstep.admitted_of_records hrecords).mergedFrom_eq]
  · rw [if_neg hrecords, (hstep.still hrecords).1]

theorem Step.merged_awaited (hstep : Step e wire s e' r) {src : TraceId}
    (hsrc : r.mergedFrom = some src) : r.Records s ∧ e.awaited.find? s.id = some src := by
  have hrecords := hstep.records_of_merged hsrc
  exact ⟨hrecords, (hstep.admitted_of_records hrecords).merged_awaited hsrc⟩

theorem Step.retained_or_truncated (hstep : Step e wire s e' r) (hrecords : r.Records s) :
    r.outcome = .retained ∨ r.outcome = .truncated := by
  rw [(hstep.admitted_of_records hrecords).outcome_eq, keepSpan]
  split
  · exact .inl rfl
  · exact .inr rfl

/-- Only a group that was there makes room. -/
theorem Step.evicted_live (hstep : Step e wire s e' r) (h : e.Sound) {gone : TraceId}
    (hgone : r.evicted = some gone) : gone ∈ e.groups.keys := by
  rw [hstep.evicted_eq h] at hgone
  split at hgone
  · exact List.mem_of_getLast? hgone
  · cases hgone

theorem Step.merged_live (hstep : Step e wire s e' r) (h : e.Sound) {src : TraceId}
    (hsrc : r.mergedFrom = some src) : src ∈ e.groups.keys :=
  h.awaited_live (hstep.merged_awaited hsrc).2

/-- Where a group goes, no group is merged. -/
theorem Step.merged_of_evicted (hstep : Step e wire s e' r) (h : e.Sound) {gone : TraceId}
    (hgone : r.evicted = some gone) : r.Records s ∧ r.mergedFrom = none := by
  have hrecords := hstep.records_of_evicted hgone
  refine ⟨hrecords, ?_⟩
  cases hmerged : r.mergedFrom with
  | none => rfl
  | some src =>
    rw [(hstep.admitted_of_records hrecords).evicted_of_merged h hmerged] at hgone
    cases hgone

/-! ## The groups -/

theorem Step.mem_keys_iff (hstep : Step e wire s e' r) {key : TraceId} :
    key ∈ e'.groups.keys ↔
      (r.outcome ≠ .unplaced ∧ key = r.group) ∨
        (key ∈ e.groups.keys ∧ r.evicted ≠ some key ∧ r.mergedFrom ≠ some key) := by
  rw [hstep.keys_touched, Report.touch]
  split
  · next hunplaced => simp [hunplaced, hstep.still_of_unplaced hunplaced]
  · next hplaced =>
    rw [List.mem_cons, List.mem_filter, decide_eq_true_eq]
    tauto

/-- What a group has seen: what it had seen before, the span, and what the group had seen that was
merged. -/
theorem Step.mem_seen_iff (hstep : Step e wire s e' r) {id : SpanId} {key : TraceId} :
    id ∈ (e'.members key).seen ↔
      (r.Records s ∧ key = r.group ∧
          (id = s.id ∨ ∃ src ∈ r.mergedFrom, id ∈ (e.members src).seen)) ∨
        (id ∈ (e.members key).seen ∧ r.evicted ≠ some key ∧ r.mergedFrom ≠ some key) := by
  by_cases hrecords : r.Records s
  · have hadmitted := hstep.admitted_of_records hrecords
    by_cases hgroup : key = r.group
    · subst hgroup
      rw [hadmitted.seen_self]
      simp only [hrecords, hadmitted.evicted_ne_group, hadmitted.merged_ne_group, ne_eq,
        not_false_eq_true, and_true, true_and]
      exact or_comm
    · rw [hadmitted.members_other key hgroup]
      split <;> simp <;> tauto
  · have hsame : (e'.members key).seen = (e.members key).seen := by
      cases hstep with
      | unplaced hstep => rw [hstep.engine_eq]; rfl
      | followed hstep => exact hstep.seen_eq key
      | repeated hstep => rw [hstep.members_eq]
      | admitted hstep => exact absurd hstep.records hrecords
    simp [hsame, hrecords, hstep.still hrecords]

theorem Step.spans_eq (hstep : Step e wire s e' r) (key : TraceId) :
    (e'.members key).spans =
      if key = r.group then
        (e.members key).spans ++ (if r.outcome = .retained then [s] else []) ++
          r.mergedFrom.elim [] fun src =>
            (e.members src).spans.filter fun t => t.id ∉ (e.members key).seen ∧ t.id ≠ s.id
      else if r.evicted = some key ∨ r.mergedFrom = some key then []
      else (e.members key).spans := by
  by_cases hgroup : key = r.group
  · rw [if_pos hgroup]
    cases hstep with
    | unplaced hstep =>
      rw [hstep.engine_eq, hstep.report_eq]
      simp [members]
    | followed hstep =>
      have houtcome : r.outcome = (keepSpan e.limits (e.members r.group) s).2 := by
        rw [hstep.report_eq]
      rw [hgroup, hstep.members_self, hstep.still.1, houtcome, spans_keepSpan_append]
      simp
    | repeated hstep =>
      rw [hstep.members_eq, hstep.report_eq]
      simp
    | admitted hstep =>
      have hadd : ((e.members r.group).add e.limits s).spans =
          (e.members r.group).spans ++ if r.outcome = .retained then [s] else [] := by
        rw [hstep.outcome_eq]
        exact spans_keepSpan_append _ _ _
      rw [hgroup, hstep.members_self, ← hadd]
      cases r.mergedFrom with
      | none => simp
      | some src => simp [Members.absorb, Members.seen_add]
  · rw [if_neg hgroup]
    cases hstep with
    | unplaced hstep =>
      rw [hstep.engine_eq, hstep.report_eq]
      simp [members]
    | followed hstep =>
      rw [hstep.members_other key hgroup, hstep.still.1, hstep.still.2]
      simp
    | repeated hstep =>
      rw [hstep.members_eq, hstep.report_eq]
      simp
    | admitted hstep =>
      rw [hstep.members_other key hgroup]
      split <;> rfl

/-! ## The indices -/

theorem Step.homes_eq (hstep : Step e wire s e' r) (id : SpanId) :
    e'.homes.find? id =
      if r.Records s ∧ (id = s.id ∨ ∃ src ∈ r.mergedFrom, id ∈ (e.members src).seen) then
        some r.group
      else (e.homes.find? id).filter (r.evicted ≠ some ·) := by
  by_cases hrecords : r.Records s
  · have hadmitted := hstep.admitted_of_records hrecords
    by_cases hid : id = s.id
    · rw [if_pos ⟨hrecords, .inl hid⟩, hid, hadmitted.homes_self]
    · rw [hadmitted.homes_other id hid]
      simp only [hrecords, hid, false_or, true_and]
  · have hsame : e'.homes = e.homes := by
      cases hstep with
      | unplaced hstep => rw [hstep.engine_eq]
      | followed hstep => exact hstep.homes_eq
      | repeated hstep => exact hstep.homes_eq
      | admitted hstep => exact absurd hstep.records hrecords
    rw [if_neg fun hand => hrecords hand.1, hsame, (hstep.still hrecords).2]
    exact (filter_of_all (by simp)).symm

/-- No group waits any longer for a span that has been recorded, nor for one whose parent has no
home. -/
theorem Step.awaited_eq (hstep : Step e wire s e' r) (id : SpanId) :
    e'.awaited.find? id =
      if id = s.id ∧ s.id.isUnassigned = false ∧
          (r.Records s ∨ s.parent.bind e.homes.find? = none) then none
      else
        (((e.awaited.find? id).filter fun owner =>
            r.evicted ≠ some owner ∧ ∀ gone ∈ r.evicted, id ∉ (e.members gone).seen).or
          (if r.Records s ∧ s.parent = some id then some r.group else none)).map
            fun owner => if r.mergedFrom = some owner then r.group else owner := by
  by_cases hrecords : r.Records s
  · have hadmitted := hstep.admitted_of_records hrecords
    by_cases hid : id = s.id
    · rw [if_pos ⟨hid, hrecords.1, .inl hrecords⟩, hid, hadmitted.awaited_self]
    · rw [if_neg fun hand => hid hand.1, hadmitted.awaited_other id hid]
      simp only [hrecords, true_and]
  · obtain ⟨hmerged, hevicted⟩ := hstep.still hrecords
    have hsame : e'.awaited.find? id =
        if id = s.id ∧ s.id.isUnassigned = false ∧ s.parent.bind e.homes.find? = none then none
        else e.awaited.find? id := by
      cases hstep with
      | unplaced hstep => simp [hstep.engine_eq, hstep.unassigned]
      | followed hstep => simp [hstep.awaited_eq, hstep.unassigned]
      | repeated hstep => simp [hstep.awaited_eq, hstep.assigned]
      | admitted hstep => exact absurd hstep.records hrecords
    rw [hsame, hmerged, hevicted]
    simp only [hrecords, false_or, false_and, if_false, Option.or_none]
    congr 1
    cases e.awaited.find? id <;> simp [Option.filter_some]

end Engine

end TraceWeave.Grouping
