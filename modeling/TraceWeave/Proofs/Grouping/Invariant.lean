import TraceWeave.Proofs.Grouping.Step

/-!
# The engine stays sound

Every placement keeps an engine sound (`Step.sound`), so every engine that comes from a new one by
placing spans is sound (`sound_run`). `run_consistent` spells out what that means for the recency
list, the two indices and the groups, if no parent is named by the empty identifier.
-/

namespace TraceWeave.Grouping

/-! ## Members -/

namespace Members

variable {limits : Limits} {m moving : Members} {s : Span}

theorem seen_add (limits : Limits) (m : Members) (s : Span) :
    (m.add limits s).seen = m.seen ++ [s.id] := rfl

theorem spans_keepSpan (limits : Limits) (m : Members) (s : Span) :
    (Engine.keepSpan limits m s).1.spans =
      if m.spans.length < limits.spans then m.spans ++ [s] else m.spans := by
  unfold Engine.keepSpan
  split <;> rfl

theorem seen_keepSpan (limits : Limits) (m : Members) (s : Span) :
    (Engine.keepSpan limits m s).1.seen = m.seen := by
  unfold Engine.keepSpan
  split <;> rfl

theorem spans_add (limits : Limits) (m : Members) (s : Span) :
    (m.add limits s).spans =
      if m.spans.length < limits.spans then m.spans ++ [s] else m.spans :=
  spans_keepSpan limits m s

theorem mem_seen_absorb {id : SpanId} :
    id ∈ (m.absorb moving).seen ↔ id ∈ m.seen ∨ id ∈ moving.seen := by
  simp only [absorb, List.mem_append, List.mem_filter, decide_eq_true_eq]
  tauto

/-- No group is so small that it keeps no span. -/
theorem spans_keepSpan_ne_nil (limits : Limits) (m : Members) (s : Span) :
    (Engine.keepSpan limits m s).1.spans ≠ [] := by
  rw [spans_keepSpan]
  split
  · simp
  · next hfull =>
    intro hnil
    have hpos := limits.spans_pos
    simp only [hnil, List.length_nil] at hfull
    omega

theorem mem_spans_keepSpan {t : Span} (h : t ∈ (Engine.keepSpan limits m s).1.spans) :
    t ∈ m.spans ∨ t = s := by
  rw [spans_keepSpan] at h
  split at h
  · simpa using h
  · exact .inl h

theorem Coherent.keepSpan_unassigned (h : m.Coherent) (hid : s.id.isUnassigned = true) :
    (Engine.keepSpan limits m s).1.Sound where
  spans_ne_nil := spans_keepSpan_ne_nil limits m s
  ids_nodup := by
    rw [spans_keepSpan]
    split
    · simpa [List.filter_append, hid] using h.ids_nodup
    · exact h.ids_nodup
  id_seen := by
    intro t ht hassigned
    rw [seen_keepSpan]
    rcases mem_spans_keepSpan ht with hold | rfl
    · exact h.id_seen t hold hassigned
    · rw [hid] at hassigned
      cases hassigned
  seen_assigned := by
    rw [seen_keepSpan]
    exact h.seen_assigned

theorem Coherent.add (h : m.Coherent) (hid : s.id.isUnassigned = false) (hfresh : s.id ∉ m.seen) :
    (m.add limits s).Sound where
  spans_ne_nil := spans_keepSpan_ne_nil limits m s
  ids_nodup := by
    rw [spans_add]
    split
    · rw [List.map_append, List.filter_append, List.nodup_append]
      refine ⟨h.ids_nodup, by simp [hid], ?_⟩
      intro id hold id' hnew heq
      obtain ⟨hmem, hassigned⟩ := List.mem_filter.mp hold
      obtain ⟨t, ht, rfl⟩ := List.mem_map.mp hmem
      have hnew' : id' = s.id := by simpa using (List.mem_filter.mp hnew).1
      apply hfresh
      rw [← hnew', ← heq]
      exact h.id_seen t ht (by simpa using hassigned)
    · exact h.ids_nodup
  id_seen := by
    intro t ht hassigned
    rw [seen_add, List.mem_append]
    rcases mem_spans_keepSpan ht with hold | rfl
    · exact .inl (h.id_seen t hold hassigned)
    · exact .inr (List.mem_singleton.mpr rfl)
  seen_assigned := by
    intro id hmem
    rw [seen_add, List.mem_append, List.mem_singleton] at hmem
    rcases hmem with hold | rfl
    · exact h.seen_assigned id hold
    · exact hid

/-- What a group takes over from another one is new to it. -/
theorem Sound.absorb (h : m.Sound) (hmoving : moving.Coherent) : (m.absorb moving).Sound where
  spans_ne_nil := by simp [Members.absorb, h.spans_ne_nil]
  ids_nodup := by
    simp only [Members.absorb, List.map_append, List.filter_append]
    rw [List.nodup_append]
    refine ⟨h.ids_nodup, ?_, ?_⟩
    · exact hmoving.ids_nodup.sublist ((List.filter_sublist.map _).filter _)
    · intro id hold id' hnew heq
      obtain ⟨hmem, hassigned⟩ := List.mem_filter.mp hold
      obtain ⟨t, ht, rfl⟩ := List.mem_map.mp hmem
      obtain ⟨t', ht', rfl⟩ := List.mem_map.mp (List.mem_filter.mp hnew).1
      have hunseen : t'.id ∉ m.seen := by simpa using (List.mem_filter.mp ht').2
      exact hunseen (heq ▸ h.id_seen t ht (by simpa using hassigned))
  id_seen := by
    intro t ht hassigned
    rw [mem_seen_absorb]
    rcases List.mem_append.mp ht with hold | hnew
    · exact .inl (h.id_seen t hold hassigned)
    · exact .inr (hmoving.id_seen t (List.mem_filter.mp hnew).1 hassigned)
  seen_assigned := by
    intro id hmem
    rcases mem_seen_absorb.mp hmem with hold | hnew
    · exact h.seen_assigned id hold
    · exact hmoving.seen_assigned id hnew

end Members

namespace Engine

variable {e e' : Engine} {wire : TraceId} {s : Span} {r : Report}

/-! ## One placement -/

theorem Sound.length_keys_le (h : e.Sound) : e.groups.keys.length ≤ e.limits.groups := by
  rw [Recency.length_keys]
  exact h.length_le

theorem nodup_cons_filter {l : List TraceId} (hnodup : l.Nodup) {p : TraceId → Bool}
    {key : TraceId} (hp : p key = false) : (key :: l.filter p).Nodup :=
  List.nodup_cons.mpr ⟨by simp [hp], hnodup.filter _⟩

/-- A key comes to the front for one that goes. -/
theorem length_cons_filter_le {l : List TraceId} {p : TraceId → Bool} {key gone : TraceId}
    (hmem : gone ∈ l) (hp : p gone = false) : (key :: l.filter p).length ≤ l.length := by
  rw [List.length_cons]
  exact List.length_filter_lt_length_iff_exists.mpr ⟨gone, hmem, by simp [hp]⟩

theorem Followed.seen_eq (hstep : Followed e s e' r) (key : TraceId) :
    (e'.members key).seen = (e.members key).seen := by
  by_cases hkey : key = r.group
  · rw [hkey, hstep.members_self, Members.seen_keepSpan]
  · rw [hstep.members_other key hkey]

theorem Followed.live (hstep : Followed e s e' r) (h : e.Sound) : r.group ∈ e.groups.keys := by
  obtain ⟨p, -, hhome⟩ := Option.bind_eq_some_iff.mp hstep.parent_home
  exact h.home_live hhome

theorem Followed.sound (hstep : Followed e s e' r) (h : e.Sound) : e'.Sound := by
  have hlive := hstep.live h
  have hmem : ∀ k, k ∈ e'.groups.keys → k ∈ e.groups.keys := by
    intro k hk
    rw [hstep.keys_eq, List.mem_cons] at hk
    rcases hk with rfl | hk
    · exact hlive
    · exact (List.mem_filter.mp hk).1
  refine ⟨?_, ?_, ?_, ?_, ?_⟩
  · rw [hstep.keys_eq]
    exact nodup_cons_filter h.keys_nodup (by simp)
  · rw [← Recency.length_keys, hstep.keys_eq, hstep.limits_eq]
    refine Nat.le_trans (length_cons_filter_le hlive ?_) h.length_keys_le
    simp
  · intro k hk
    by_cases hgroup : k = r.group
    · rw [hgroup, hstep.members_self]
      exact (h.coherent r.group).keepSpan_unassigned hstep.unassigned
    · rw [hstep.members_other k hgroup]
      exact h.members_sound k (hmem k hk)
  · intro id key hfind
    rw [hstep.seen_eq]
    exact h.home_seen (hstep.homes_eq ▸ hfind)
  · intro id key hfind
    have hkey : key ∈ e.groups.keys := h.awaited_live (hstep.awaited_eq ▸ hfind)
    rw [hstep.keys_eq, List.mem_cons, List.mem_filter]
    by_cases hgroup : key = r.group
    · exact .inl hgroup
    · exact .inr ⟨hkey, by simp [hgroup]⟩

theorem Repeated.live (hstep : Repeated e wire s e' r) : r.group ∈ e.groups.keys :=
  mem_keys_of_mem_seen hstep.seen

theorem Repeated.keys_eq (hstep : Repeated e wire s e' r) :
    e'.groups.keys = r.group :: e.groups.keys.filter (· ≠ r.group) := by
  rw [hstep.groups_eq, Recency.keys_touch, if_pos hstep.live]

theorem Repeated.mem_keys (hstep : Repeated e wire s e' r) {key : TraceId} :
    key ∈ e'.groups.keys ↔ key ∈ e.groups.keys := by
  rw [hstep.keys_eq, List.mem_cons, List.mem_filter]
  by_cases hgroup : key = r.group
  · simp [hgroup, hstep.live]
  · simp [hgroup]

theorem Repeated.members_eq (hstep : Repeated e wire s e' r) (key : TraceId) :
    e'.members key = e.members key := by
  simp [members, hstep.groups_eq, Recency.find?_touch]

theorem Repeated.sound (hstep : Repeated e wire s e' r) (h : e.Sound) : e'.Sound := by
  refine ⟨?_, ?_, ?_, ?_, ?_⟩
  · rw [hstep.keys_eq]
    exact nodup_cons_filter h.keys_nodup (by simp)
  · rw [← Recency.length_keys, hstep.keys_eq, hstep.limits_eq]
    refine Nat.le_trans (length_cons_filter_le hstep.live ?_) h.length_keys_le
    simp
  · intro k hk
    rw [hstep.members_eq]
    exact h.members_sound k (hstep.mem_keys.mp hk)
  · intro id key hfind
    rw [hstep.members_eq]
    exact h.home_seen (hstep.homes_eq ▸ hfind)
  · intro id key hfind
    rw [hstep.awaited_eq] at hfind
    split at hfind
    · cases hfind
    · exact hstep.mem_keys.mpr (h.awaited_live hfind)

namespace Admitted

theorem seen_self (hstep : Admitted e wire s e' r) {id : SpanId} :
    id ∈ (e'.members r.group).seen ↔ id ∈ (e.members r.group).seen ∨ id = s.id ∨
      ∃ src ∈ r.mergedFrom, id ∈ (e.members src).seen := by
  rw [hstep.members_self]
  cases r.mergedFrom with
  | none => simp [Members.seen_add]
  | some src => simp [Members.mem_seen_absorb, Members.seen_add, or_assoc]

/-- What a group has seen afterwards is the span, was seen there before, or has come with the group
that was merged. -/
theorem seen_cases (hstep : Admitted e wire s e' r) {id : SpanId} {key : TraceId}
    (hmem : id ∈ (e'.members key).seen) :
    (id = s.id ∧ key = r.group) ∨ id ∈ (e.members key).seen ∨
      ∃ src, r.mergedFrom = some src ∧ key = r.group ∧ id ∈ (e.members src).seen := by
  by_cases hgroup : key = r.group
  · subst hgroup
    rcases hstep.seen_self.mp hmem with hold | hself | ⟨src, hsrc, htaken⟩
    · exact .inr (.inl hold)
    · exact .inl ⟨hself, rfl⟩
    · exact .inr (.inr ⟨src, hsrc, rfl, htaken⟩)
  · rw [hstep.members_other key hgroup] at hmem
    split at hmem
    · cases hmem
    · exact .inr (.inl hmem)

theorem mem_keys (hstep : Admitted e wire s e' r) {key : TraceId} : key ∈ e'.groups.keys ↔
    key = r.group ∨ (key ∈ e.groups.keys ∧ r.evicted ≠ some key ∧ r.mergedFrom ≠ some key) := by
  rw [hstep.keys_eq, List.mem_cons, List.mem_filter, decide_eq_true_eq]
  tauto

theorem members_kept (hstep : Admitted e wire s e' r) {key : TraceId} (hne : key ≠ r.group)
    (hevicted : r.evicted ≠ some key) (hmerged : r.mergedFrom ≠ some key) :
    e'.members key = e.members key := by
  rw [hstep.members_other key hne, if_neg (by simp [hevicted, hmerged])]

/-- Room is made for a new group only, and by one other group. -/
theorem length_le (hstep : Admitted e wire s e' r) (h : e.Sound) :
    e'.groups.length ≤ e'.limits.groups := by
  rw [← Recency.length_keys, hstep.keys_eq, hstep.limits_eq]
  by_cases hlive : r.group ∈ e.groups.keys
  · refine Nat.le_trans (length_cons_filter_le hlive ?_) h.length_keys_le
    simp
  · by_cases hroom : e.groups.length < e.limits.groups
    · rw [← Recency.length_keys] at hroom
      exact Nat.le_trans (Nat.succ_le_succ (List.length_filter_le _ _)) hroom
    · have hevicted := hstep.evicted_eq
      rw [if_neg (by tauto)] at hevicted
      have hne : e.groups ≠ [] := by
        intro hnil
        have hpos := e.limits.groups_pos
        rw [hnil, List.length_nil] at hroom
        omega
      obtain ⟨gone, m, hlast⟩ := getLast?_of_ne_nil hne
      rw [Recency.getLast?_keys, hlast, Option.map_some] at hevicted
      have hgone : gone ∈ e.groups.keys := List.mem_map.mpr ⟨_, List.mem_of_getLast? hlast, rfl⟩
      refine Nat.le_trans (length_cons_filter_le hgone ?_) h.length_keys_le
      simp [hevicted]

theorem members_sound (hstep : Admitted e wire s e' r) (h : e.Sound) :
    ∀ key ∈ e'.groups.keys, (e'.members key).Sound := by
  intro key hkey
  have hadd : ((e.members r.group).add e.limits s).Sound :=
    (h.coherent r.group).add hstep.assigned hstep.fresh
  by_cases hgroup : key = r.group
  · rw [hgroup, hstep.members_self]
    cases r.mergedFrom with
    | none => exact hadd
    | some src => exact hadd.absorb (h.coherent src)
  · obtain ⟨hlive, hevicted, hmerged⟩ := (hstep.mem_keys.mp hkey).resolve_left hgroup
    rw [hstep.members_kept hgroup hevicted hmerged]
    exact h.members_sound key hlive

theorem home_seen (hstep : Admitted e wire s e' r) (h : e.Sound) {id : SpanId} {key : TraceId}
    (hfind : e'.homes.find? id = some key) : id ∈ (e'.members key).seen := by
  by_cases hid : id = s.id
  · rw [hid, hstep.homes_self] at hfind
    obtain rfl := Option.some.inj hfind
    exact hstep.seen_self.mpr (.inr (.inl hid))
  · rw [hstep.homes_other id hid] at hfind
    split at hfind
    · next htaken =>
      obtain rfl := Option.some.inj hfind
      exact hstep.seen_self.mpr (.inr (.inr htaken))
    · next htaken =>
      obtain ⟨hhome, hevicted⟩ := Option.filter_eq_some_iff.mp hfind
      have hseen := h.home_seen hhome
      by_cases hgroup : key = r.group
      · subst hgroup
        exact hstep.seen_self.mpr (.inl hseen)
      · have hmerged : r.mergedFrom ≠ some key := fun heq => htaken ⟨key, heq, hseen⟩
        rw [hstep.members_kept hgroup (by simpa using hevicted) hmerged]
        exact hseen

theorem awaited_live (hstep : Admitted e wire s e' r) (h : e.Sound) {id : SpanId}
    {key : TraceId} (hfind : e'.awaited.find? id = some key) : key ∈ e'.groups.keys := by
  rw [hstep.mem_keys]
  by_cases hid : id = s.id
  · rw [hid, hstep.awaited_self] at hfind
    cases hfind
  · rw [hstep.awaited_other id hid] at hfind
    obtain ⟨owner, howner, hkey⟩ := Option.map_eq_some_iff.mp hfind
    by_cases hmerged : r.mergedFrom = some owner
    · rw [if_pos hmerged] at hkey
      exact .inl hkey.symm
    · rw [if_neg hmerged] at hkey
      subst hkey
      rcases Option.or_eq_some_iff.mp howner with hold | ⟨-, hnew⟩
      · obtain ⟨hawaited, hkept⟩ := Option.filter_eq_some_iff.mp hold
        rw [decide_eq_true_eq] at hkept
        exact .inr ⟨h.awaited_live hawaited, hkept.1, hmerged⟩
      · split at hnew
        · exact .inl (Option.some.inj hnew).symm
        · cases hnew

theorem sound (hstep : Admitted e wire s e' r) (h : e.Sound) : e'.Sound where
  keys_nodup := by
    rw [hstep.keys_eq]
    exact nodup_cons_filter h.keys_nodup (by simp)
  length_le := hstep.length_le h
  members_sound := hstep.members_sound h
  home_seen := hstep.home_seen h
  awaited_live := hstep.awaited_live h

end Admitted

theorem Step.sound (hstep : Step e wire s e' r) (h : e.Sound) : e'.Sound := by
  cases hstep with
  | unplaced hstep =>
    rw [hstep.engine_eq]
    exact ⟨h.keys_nodup, h.length_le, h.members_sound, h.home_seen, h.awaited_live⟩
  | followed hstep => exact hstep.sound h
  | repeated hstep => exact hstep.sound h
  | admitted hstep => exact hstep.sound h

theorem sound_place (h : e.Sound) (wire : TraceId) (s : Span) : (e.place wire s).1.Sound :=
  (step_place h wire s).sound h

/-! ## Runs -/

/-- What every placement of an admissible span keeps, every run of admissible spans keeps. -/
theorem run_induction {P : Engine → Prop} {Q : TraceId × Span → Prop}
    (hstep : ∀ e wire s, P e → Q (wire, s) → P (e.place wire s).1) {e : Engine} (h : P e) :
    ∀ steps : List (TraceId × Span), (∀ step ∈ steps, Q step) → P (e.run steps).1 := by
  intro steps
  induction steps generalizing e with
  | nil => exact fun _ => h
  | cons step rest ih =>
    intro hall
    obtain ⟨wire, s⟩ := step
    exact ih (hstep e wire s h (hall _ List.mem_cons_self))
      fun step hmem => hall step (List.mem_cons_of_mem _ hmem)

theorem sound_run (groups spans : Nat) (steps : List (TraceId × Span)) :
    ((new groups spans).run steps).1.Sound :=
  run_induction (P := Sound) (Q := fun _ => True) (fun _ wire s h _ => sound_place h wire s)
    (sound_new groups spans) steps fun _ _ => trivial

theorem Step.limits_eq (hstep : Step e wire s e' r) : e'.limits = e.limits := by
  cases hstep with
  | unplaced hstep => rw [hstep.engine_eq]
  | followed hstep => exact hstep.limits_eq
  | repeated hstep => exact hstep.limits_eq
  | admitted hstep => exact hstep.limits_eq

/-- Nothing ever waits for the empty identifier, unless a span names it as its parent. -/
theorem Step.awaited_unassigned (hstep : Step e wire s e' r)
    (hparent : s.parent ≠ some .unassigned) (h : e.awaited.find? .unassigned = none) :
    e'.awaited.find? .unassigned = none := by
  cases hstep with
  | unplaced hstep => rw [hstep.engine_eq, h]
  | followed hstep => rw [hstep.awaited_eq, h]
  | repeated hstep => rw [hstep.awaited_eq, h, ite_self]
  | admitted hstep =>
    have hne : SpanId.unassigned ≠ s.id := by
      intro heq
      have hassigned := hstep.assigned
      rw [← heq] at hassigned
      cases hassigned
    rw [hstep.awaited_other _ hne, h, if_neg hparent]
    rfl

/-- **The engine between two placements.** -/
structure Consistent (e : Engine) : Prop where
  length_le : e.groups.length ≤ e.limits.groups
  keys_nodup : (e.groups.map (·.1)).Nodup
  /-- Every group keeps some span. -/
  spans_ne_nil : ∀ key m, (key, m) ∈ e.groups → m.spans ≠ []
  /-- No group keeps two spans of one assigned identifier. -/
  ids_nodup : ∀ key m, (key, m) ∈ e.groups →
    ((m.spans.map (·.id)).filter (!·.isUnassigned)).Nodup
  /-- A group has seen the identifiers of the spans that it keeps. -/
  id_seen : ∀ key m, (key, m) ∈ e.groups →
    ∀ s ∈ m.spans, s.id.isUnassigned = false → s.id ∈ m.seen
  /-- The group that a span is said to belong to is there and has seen the span. -/
  home_seen : ∀ id key, e.homes.find? id = some key → ∃ m, (key, m) ∈ e.groups ∧ id ∈ m.seen
  /-- A group that waits is there. -/
  awaited_live : ∀ id key, e.awaited.find? id = some key → ∃ m, (key, m) ∈ e.groups
  unassigned_unseen : ∀ key m, (key, m) ∈ e.groups → SpanId.unassigned ∉ m.seen
  unassigned_homeless : e.homes.find? .unassigned = none
  unassigned_unawaited : e.awaited.find? .unassigned = none

theorem mem_groups_iff (h : e.Sound) {key : TraceId} {m : Members} :
    (key, m) ∈ e.groups ↔ key ∈ e.groups.keys ∧ e.members key = m := by
  constructor
  · intro hmem
    refine ⟨List.mem_map.mpr ⟨_, hmem, rfl⟩, members_of_find? ?_⟩
    exact Recency.find?_of_mem h.keys_nodup hmem
  · rintro ⟨hlive, rfl⟩
    exact Recency.mem_of_find? (find?_of_mem hlive)

theorem Sound.consistent (h : e.Sound) (hunawaited : e.awaited.find? .unassigned = none) :
    e.Consistent where
  length_le := h.length_le
  keys_nodup := h.keys_nodup
  spans_ne_nil := by
    intro key m hmem
    obtain ⟨hlive, rfl⟩ := (mem_groups_iff h).mp hmem
    exact (h.members_sound key hlive).spans_ne_nil
  ids_nodup := by
    intro key m hmem
    obtain ⟨-, rfl⟩ := (mem_groups_iff h).mp hmem
    exact (h.coherent key).ids_nodup
  id_seen := by
    intro key m hmem
    obtain ⟨-, rfl⟩ := (mem_groups_iff h).mp hmem
    exact (h.coherent key).id_seen
  home_seen := by
    intro id key hfind
    exact ⟨_, (mem_groups_iff h).mpr ⟨h.home_live hfind, rfl⟩, h.home_seen hfind⟩
  awaited_live := by
    intro id key hfind
    exact ⟨_, (mem_groups_iff h).mpr ⟨h.awaited_live hfind, rfl⟩⟩
  unassigned_unseen := by
    intro key m hmem hseen
    obtain ⟨-, rfl⟩ := (mem_groups_iff h).mp hmem
    cases h.seen_assigned hseen
  unassigned_homeless := by
    cases hfind : e.homes.find? .unassigned with
    | none => rfl
    | some key => cases h.home_assigned hfind
  unassigned_unawaited := hunawaited

/-- A span of which nothing but its links matters. -/
def bareSpan (id : String) (parent : Option String) : Span where
  wireTraceId := ⟨""⟩
  id := ⟨id⟩
  parent := parent.map SpanId.mk
  name := ""
  start := 0
  finish := 0
  service := ""
  attributes := []

/-- **Every engine that is reached is consistent**, and keeps the limits that it was made with, if
no span names the empty identifier as its parent. -/
theorem run_consistent (groups spans : Nat) (steps : List (TraceId × Span))
    (hparents : ∀ step ∈ steps, ∀ p, step.2.parent = some p → p.isUnassigned = false) :
    ((new groups spans).run steps).1.limits = .of groups spans ∧
      ((new groups spans).run steps).1.Consistent := by
  have hkept := run_induction
    (P := fun e => e.Sound ∧ e.limits = .of groups spans ∧ e.awaited.find? .unassigned = none)
    (Q := fun step => ∀ p, step.2.parent = some p → p.isUnassigned = false)
    (fun e wire s ⟨hsound, hlimits, hunawaited⟩ hparent => by
      have hstep := step_place hsound wire s
      have hne : s.parent ≠ some .unassigned := by
        intro heq
        cases hparent _ heq
      exact ⟨hstep.sound hsound, hstep.limits_eq.trans hlimits,
        hstep.awaited_unassigned hne hunawaited⟩)
    ⟨sound_new groups spans, rfl, rfl⟩ steps hparents
  exact ⟨hkept.2.1, hkept.1.consistent hkept.2.2⟩

/-- A run in which two groups are merged, a span comes again, one has no identifier, one is its own
parent, and the merged group has to go. -/
theorem run_consistent_mixed :
    let steps : List (TraceId × Span) :=
      [(⟨"w1"⟩, bareSpan "a" none), (⟨"w2"⟩, bareSpan "c" (some "b")),
        (⟨"w3"⟩, bareSpan "b" (some "a")), (⟨"w3"⟩, bareSpan "b" (some "a")),
        (⟨"w4"⟩, bareSpan "" (some "c")), (⟨"w5"⟩, bareSpan "d" (some "d")),
        (⟨"w6"⟩, bareSpan "e" none)]
    (∀ step ∈ steps, ∀ p, step.2.parent = some p → p.isUnassigned = false) ∧
      ((new 2 10).run steps).1.limits = .of 2 10 ∧ ((new 2 10).run steps).1.Consistent := by
  intro steps
  have hparents : ∀ step ∈ steps, ∀ p, step.2.parent = some p → p.isUnassigned = false := by
    simp [steps, bareSpan, SpanId.isUnassigned]
  exact ⟨hparents, run_consistent 2 10 steps hparents⟩

end Engine

end TraceWeave.Grouping
