import TraceWeave.Proofs.Grouping.Operations

/-!
# What placing a span does

`step_place` says all that placing one span does to a sound engine, in terms of the report that is
given: the keys and members of the groups, and what both indices find afterwards. A span is left
out, follows its parent without being recorded, comes to its group again, or is new there; each of
the four has a structure of its own. Later modules argue about `Step` and never open the definition
of `place`.
-/

namespace TraceWeave.Grouping.Engine

/-- A span without an identifier whose parent is not known. -/
structure Unplaced (e : Engine) (wire : TraceId) (s : Span) (e' : Engine) (r : Report) : Prop where
  unassigned : s.id.isUnassigned = true
  orphan : s.parent.bind e.homes.find? = none
  report_eq : r = { group := wire, outcome := .unplaced }
  engine_eq : e' = { e with counters := e.counters.count .unplaced }

/-- A span without an identifier that follows its parent. -/
structure Followed (e : Engine) (s : Span) (e' : Engine) (r : Report) : Prop where
  unassigned : s.id.isUnassigned = true
  parent_home : s.parent.bind e.homes.find? = some r.group
  report_eq : r = { group := r.group, outcome := (keepSpan e.limits (e.members r.group) s).2 }
  limits_eq : e'.limits = e.limits
  keys_eq : e'.groups.keys = r.group :: e.groups.keys.filter (· ≠ r.group)
  members_self : e'.members r.group = (keepSpan e.limits (e.members r.group) s).1
  members_other : ∀ k ≠ r.group, e'.members k = e.members k
  homes_eq : e'.homes = e.homes
  awaited_eq : e'.awaited = e.awaited

/-- A span that its group has seen before. -/
structure Repeated (e : Engine) (wire : TraceId) (s : Span) (e' : Engine) (r : Report) : Prop where
  assigned : s.id.isUnassigned = false
  group_eq : r.group = e.target wire s
  seen : s.id ∈ (e.members r.group).seen
  report_eq : r = { group := r.group, outcome := .duplicate }
  limits_eq : e'.limits = e.limits
  groups_eq : e'.groups = e.groups.touch r.group
  homes_eq : e'.homes = e.homes
  awaited_eq : ∀ id, e'.awaited.find? id =
    if id = s.id ∧ s.parent.bind e.homes.find? = none then none else e.awaited.find? id

/-- A span that is new to its group. -/
structure Admitted (e : Engine) (wire : TraceId) (s : Span) (e' : Engine) (r : Report) : Prop where
  assigned : s.id.isUnassigned = false
  group_eq : r.group = e.target wire s
  fresh : s.id ∉ (e.members r.group).seen
  outcome_eq : r.outcome = (keepSpan e.limits (e.members r.group) s).2
  evicted_eq : r.evicted =
    if r.group ∈ e.groups.keys ∨ e.groups.length < e.limits.groups then none
    else e.groups.keys.getLast?
  mergedFrom_eq : r.mergedFrom =
    ((s.parent.bind e.homes.find?).bind fun _ => e.awaited.find? s.id).filter (· ≠ r.group)
  limits_eq : e'.limits = e.limits
  keys_eq : e'.groups.keys = r.group :: e.groups.keys.filter fun k =>
    k ≠ r.group ∧ r.evicted ≠ some k ∧ r.mergedFrom ≠ some k
  members_self : e'.members r.group =
    r.mergedFrom.elim ((e.members r.group).add e.limits s) fun src =>
      ((e.members r.group).add e.limits s).absorb (e.members src)
  members_other : ∀ k ≠ r.group, e'.members k =
    if r.evicted = some k ∨ r.mergedFrom = some k then {} else e.members k
  homes_self : e'.homes.find? s.id = some r.group
  homes_other : ∀ id ≠ s.id, e'.homes.find? id =
    if ∃ src ∈ r.mergedFrom, id ∈ (e.members src).seen then some r.group
    else (e.homes.find? id).filter (r.evicted ≠ some ·)
  awaited_self : e'.awaited.find? s.id = none
  awaited_other : ∀ id ≠ s.id, e'.awaited.find? id =
    (((e.awaited.find? id).filter fun owner =>
      r.evicted ≠ some owner ∧ ∀ gone ∈ r.evicted, id ∉ (e.members gone).seen).or
        (if s.parent = some id then some r.group else none)).map
      fun owner => if r.mergedFrom = some owner then r.group else owner

/-- What placing a span can do. -/
inductive Step (e : Engine) (wire : TraceId) (s : Span) (e' : Engine) (r : Report) : Prop
  | unplaced (h : Unplaced e wire s e' r)
  | followed (h : Followed e s e' r)
  | repeated (h : Repeated e wire s e' r)
  | admitted (h : Admitted e wire s e' r)

/-! ## Spans without an identifier -/

theorem placeUnassigned_step {e : Engine} (h : e.Sound) (wire : TraceId) {s : Span}
    (hid : s.id.isUnassigned = true) :
    Step e wire s (e.placeUnassigned wire s).1 (e.placeUnassigned wire s).2 := by
  cases hparent : s.parent.bind e.homes.find? with
  | none =>
    simp only [placeUnassigned, hparent, Option.filter_none]
    exact .unplaced ⟨hid, hparent, rfl, rfl⟩
  | some group =>
    obtain ⟨p, -, hhome⟩ := Option.bind_eq_some_iff.mp hparent
    have hlive : group ∈ e.groups.keys := h.home_live hhome
    have hcontains : (some group).filter e.containsGroup = some group :=
      Option.filter_some_pos (containsGroup_iff.mpr hlive)
    simp only [placeUnassigned, hparent, hcontains]
    refine .followed ⟨hid, hparent, rfl, rfl, ?_, ?_, ?_, rfl, rfl⟩
    · rw [Recency.keys_update, Recency.keys_touch, if_pos hlive]
    · apply members_of_find?
      simp [Recency.find?_update, Recency.find?_touch, find?_of_mem hlive]
    · intro k hk
      simp [members, Recency.find?_update, Recency.find?_touch, Ne.symm hk]

/-! ## Spans with an identifier -/

section Assigned

variable {e : Engine} {wire : TraceId} {s : Span}

/-- The engine in which the group of a span has been chosen and opened, with the group that had to
go. -/
def opened (e : Engine) (wire : TraceId) (s : Span) : Engine × Option TraceId :=
  (e.route wire s).2.openGroup (e.target wire s)

/-- The engine in which a span has been recorded, with what became of it. -/
def recorded (e : Engine) (wire : TraceId) (s : Span) : Engine × Outcome :=
  (e.opened wire s).1.record (e.target wire s) s

/-- The engine in which the group of a span waits for the span's parent. -/
def awaiting (e : Engine) (wire : TraceId) (s : Span) : Engine :=
  (e.recorded wire s).1.await s.parent (e.target wire s)

theorem placeAssigned_eq (e : Engine) (wire : TraceId) (s : Span) :
    e.placeAssigned wire s =
      if s.id ∈ ((e.opened wire s).1.members (e.target wire s)).seen then
        ({ (e.opened wire s).1 with
            counters := (e.opened wire s).1.counters.count .duplicate },
          { group := e.target wire s, outcome := .duplicate, evicted := (e.opened wire s).2 })
      else
        (((e.awaiting wire s).welcome s.id (e.target wire s)).1,
          { group := e.target wire s, outcome := (e.recorded wire s).2,
            mergedFrom := ((e.awaiting wire s).welcome s.id (e.target wire s)).2,
            evicted := (e.opened wire s).2 }) := by
  simp only [opened, recorded, awaiting, ← (route_routed e wire s).1]
  rfl

theorem target_of_home {group : TraceId} (h : s.parent.bind e.homes.find? = some group) :
    e.target wire s = group := by
  simp [target, h]

theorem opened_opened (h : e.Sound) (wire : TraceId) (s : Span) :
    Opened (e.route wire s).2 (e.target wire s) (e.opened wire s).1 (e.opened wire s).2 :=
  openGroup_opened ((route_routed e wire s).2.sound h) _

theorem limits_opened (h : e.Sound) (wire : TraceId) (s : Span) :
    (e.opened wire s).1.limits = e.limits :=
  (opened_opened h wire s).limits_eq.trans (route_routed e wire s).2.limits_eq

theorem evicted_opened (h : e.Sound) (wire : TraceId) (s : Span) : (e.opened wire s).2 =
    if e.target wire s ∈ e.groups.keys ∨ e.groups.length < e.limits.groups then none
    else e.groups.keys.getLast? := by
  have hroute := (route_routed e wire s).2
  rw [(opened_opened h wire s).evicted_eq, hroute.groups_eq, hroute.limits_eq]

theorem members_opened (h : e.Sound) (wire : TraceId) (s : Span) (k : TraceId) :
    (e.opened wire s).1.members k = if (e.opened wire s).2 = some k then {} else e.members k := by
  rw [(opened_opened h wire s).members_eq, (route_routed e wire s).2.members_eq]

/-- A group that goes is there before, so it is not the one that is opened. -/
theorem evicted_opened_ne (h : e.Sound) (wire : TraceId) (s : Span) :
    (e.opened wire s).2 ≠ some (e.target wire s) := by
  rw [evicted_opened h]
  split
  · simp
  · next hnot =>
    intro hlast
    exact hnot (.inl (List.mem_of_getLast? hlast))

theorem members_opened_target (h : e.Sound) (wire : TraceId) (s : Span) :
    (e.opened wire s).1.members (e.target wire s) = e.members (e.target wire s) := by
  rw [members_opened h, if_neg (evicted_opened_ne h wire s)]

theorem placeAssigned_repeated (h : e.Sound) (hid : s.id.isUnassigned = false)
    (hseen : s.id ∈ (e.members (e.target wire s)).seen) :
    Repeated e wire s (e.placeAssigned wire s).1 (e.placeAssigned wire s).2 := by
  have hlive : e.target wire s ∈ e.groups.keys := mem_keys_of_mem_seen hseen
  have hroute := (route_routed e wire s).2
  have hopen : e.opened wire s =
      ({ (e.route wire s).2 with groups := e.groups.touch (e.target wire s) }, none) := by
    simp [opened, openGroup, hroute.groups_eq, find?_of_mem hlive]
  rw [placeAssigned_eq, if_pos (by rwa [members_opened_target h]), hopen]
  exact ⟨hid, rfl, hseen, rfl, hroute.limits_eq, rfl, hroute.homes_eq, hroute.awaited_eq⟩

theorem keys_awaiting (h : e.Sound) (wire : TraceId) (s : Span) :
    (e.awaiting wire s).groups.keys = e.target wire s :: e.groups.keys.filter fun k =>
      k ≠ e.target wire s ∧ (e.opened wire s).2 ≠ some k := by
  rw [awaiting, groups_await, recorded, keys_record, (opened_opened h wire s).keys_eq,
    (route_routed e wire s).2.groups_eq]

theorem members_awaiting (h : e.Sound) (wire : TraceId) (s : Span) (k : TraceId) :
    (e.awaiting wire s).members k =
      if e.target wire s = k then (e.members k).add e.limits s
      else if (e.opened wire s).2 = some k then {} else e.members k := by
  have hlive : e.target wire s ∈ (e.opened wire s).1.groups.keys := by
    simp [(opened_opened h wire s).keys_eq]
  rw [awaiting, members_await, recorded, members_record hlive, members_opened_target h,
    limits_opened h, members_opened h]
  split
  · next heq => rw [heq]
  · rfl

theorem homes_awaiting (h : e.Sound) (wire : TraceId) (s : Span) (id : SpanId) :
    (e.awaiting wire s).homes.find? id =
      if id = s.id then some (e.target wire s)
      else (e.homes.find? id).filter ((e.opened wire s).2 ≠ some ·) := by
  rw [awaiting, homes_await, recorded, homes_record, (opened_opened h wire s).homes_eq,
    (route_routed e wire s).2.homes_eq]

theorem awaited_awaiting (h : e.Sound) (wire : TraceId) (s : Span) (id : SpanId) :
    (e.awaiting wire s).awaited.find? id =
      ((if id = s.id ∧ s.parent.bind e.homes.find? = none then none
        else e.awaited.find? id).filter fun owner =>
          (e.opened wire s).2 ≠ some owner ∧
            ∀ gone ∈ (e.opened wire s).2, id ∉ (e.members gone).seen).or
        (if s.parent = some id then some (e.target wire s) else none) := by
  have hrecord : (e.recorded wire s).1.awaited = (e.opened wire s).1.awaited := by
    simp only [recorded, record]
  rw [awaiting, awaited_await, hrecord, (opened_opened h wire s).awaited_eq,
    (route_routed e wire s).2.awaited_eq]
  simp only [(route_routed e wire s).2.members_eq]

/-- A group that some span waits for is there after opening, or the entry is gone. -/
theorem awaited_awaiting_live (h : e.Sound) {id : SpanId} {src : TraceId}
    (hsrc : (e.awaiting wire s).awaited.find? id = some src) :
    src ∈ (e.awaiting wire s).groups.keys := by
  rw [keys_awaiting h, List.mem_cons]
  by_cases htarget : src = e.target wire s
  · exact .inl htarget
  · right
    rw [awaited_awaiting h, Option.or_eq_some_iff] at hsrc
    rcases hsrc with hold | ⟨-, hnew⟩
    · obtain ⟨hfound, hkept⟩ := Option.filter_eq_some_iff.mp hold
      have hlive : src ∈ e.groups.keys := by
        split at hfound
        · cases hfound
        · exact h.awaited_live hfound
      simp only [decide_eq_true_eq] at hkept
      simp [hlive, htarget, hkept.1]
    · split at hnew
      · exact absurd (Option.some.inj hnew).symm htarget
      · cases hnew

/-- A span whose parent is known goes to a group that is there, and none has to go for it. -/
theorem evicted_of_home (h : e.Sound) (wire : TraceId) {group : TraceId}
    (hhome : s.parent.bind e.homes.find? = some group) : (e.opened wire s).2 = none := by
  obtain ⟨p, -, hp⟩ := Option.bind_eq_some_iff.mp hhome
  rw [evicted_opened h, target_of_home hhome, if_pos (.inl (h.home_live hp))]

/-- Only a span whose parent is known can find another group waiting for it: else the group that
waits is the one that the span goes to. -/
theorem mergedFrom_awaiting (h : e.Sound) (wire : TraceId) (s : Span) :
    ((e.awaiting wire s).awaited.find? s.id).filter (· ≠ e.target wire s) =
      ((s.parent.bind e.homes.find?).bind fun _ => e.awaited.find? s.id).filter
        (· ≠ e.target wire s) := by
  have hor : ∀ o : Option TraceId,
      (o.or (if s.parent = some s.id then some (e.target wire s) else none)).filter
        (· ≠ e.target wire s) = o.filter (· ≠ e.target wire s) := by
    intro o
    cases o with
    | some owner => simp
    | none => split <;> simp [Option.filter_some]
  rw [awaited_awaiting h, hor]
  cases hhome : s.parent.bind e.homes.find? with
  | none => simp
  | some group =>
    have hkept : ∀ o : Option TraceId, o.filter (fun owner => decide
        (none ≠ some owner ∧ ∀ gone ∈ (none : Option TraceId), s.id ∉ (e.members gone).seen)) =
          o := fun _ => filter_of_all (by simp)
    simp only [evicted_of_home h wire hhome, hkept]
    simp

theorem welcomed_awaiting (h : e.Sound) (wire : TraceId) (s : Span) :
    Welcomed (e.awaiting wire s) s.id (e.target wire s)
      ((e.awaiting wire s).welcome s.id (e.target wire s)).1
      ((e.awaiting wire s).welcome s.id (e.target wire s)).2 :=
  welcome_welcomed (by simp [keys_awaiting h]) fun _ => awaited_awaiting_live h

/-- A group that is merged has not gone before. -/
theorem members_src_awaiting (h : e.Sound) {src : TraceId}
    (hsrc : src ∈ ((e.awaiting wire s).welcome s.id (e.target wire s)).2) :
    (e.awaiting wire s).members src = e.members src := by
  rw [(welcomed_awaiting h wire s).mergedFrom_eq, mergedFrom_awaiting h] at hsrc
  obtain ⟨hsome, hne⟩ := Option.filter_eq_some_iff.mp hsrc
  obtain ⟨group, hhome, -⟩ := Option.bind_eq_some_iff.mp hsome
  have htarget : ¬e.target wire s = src := fun heq => by simp [heq] at hne
  rw [members_awaiting h, if_neg htarget, evicted_of_home h wire hhome]
  simp

theorem seen_src_awaiting (h : e.Sound) (wire : TraceId) (s : Span) (id : SpanId) :
    (∃ src ∈ ((e.awaiting wire s).welcome s.id (e.target wire s)).2,
        id ∈ ((e.awaiting wire s).members src).seen) ↔
      ∃ src ∈ ((e.awaiting wire s).welcome s.id (e.target wire s)).2,
        id ∈ (e.members src).seen := by
  constructor
  · rintro ⟨src, hsrc, hseen⟩
    exact ⟨src, hsrc, members_src_awaiting h hsrc ▸ hseen⟩
  · rintro ⟨src, hsrc, hseen⟩
    exact ⟨src, hsrc, (members_src_awaiting h hsrc).symm ▸ hseen⟩

theorem placeAssigned_admitted (h : e.Sound) (hid : s.id.isUnassigned = false)
    (hfresh : s.id ∉ (e.members (e.target wire s)).seen) :
    Admitted e wire s (e.placeAssigned wire s).1 (e.placeAssigned wire s).2 := by
  have hwelcomed := welcomed_awaiting h wire s
  rw [placeAssigned_eq, if_neg (by rwa [members_opened_target h])]
  refine ⟨hid, rfl, hfresh, ?_, evicted_opened h wire s, ?_, ?_, ?_, ?_, ?_, ?_, ?_, ?_, ?_⟩
  · simp only [recorded, record, limits_opened h, members_opened_target h]
  · rw [hwelcomed.mergedFrom_eq, mergedFrom_awaiting h]
  · rw [hwelcomed.limits_eq, awaiting, limits_await]
    exact limits_opened h wire s
  · have hne : ((e.awaiting wire s).welcome s.id (e.target wire s)).2 ≠
        some (e.target wire s) := by
      rw [hwelcomed.mergedFrom_eq]
      simp
    rw [hwelcomed.keys_eq, keys_awaiting h, List.filter_cons_of_pos (by simpa using hne),
      List.filter_filter]
    congr 1
    apply List.filter_congr
    intro k _
    simp only [ne_eq, Bool.decide_and, decide_not]
    ac_rfl
  · rw [hwelcomed.members_self, members_awaiting h, if_pos rfl]
    cases hmerged : ((e.awaiting wire s).welcome s.id (e.target wire s)).2 with
    | none => rfl
    | some src => simp [members_src_awaiting h hmerged]
  · intro k hk
    rw [hwelcomed.members_other k hk, members_awaiting h, if_neg (Ne.symm hk)]
    by_cases hmerged : ((e.awaiting wire s).welcome s.id (e.target wire s)).2 = some k
    · simp [hmerged]
    · simp [hmerged]
  · rw [hwelcomed.homes_eq, homes_awaiting h, if_pos rfl]
    split <;> rfl
  · intro id hne
    rw [hwelcomed.homes_eq, homes_awaiting h, if_neg hne]
    simp only [seen_src_awaiting h wire s id]
  · rw [hwelcomed.awaited_eq, if_pos rfl]
  · intro id hne
    rw [hwelcomed.awaited_eq, if_neg hne, awaited_awaiting h,
      if_neg (fun hand : id = s.id ∧ _ => hne hand.1)]

theorem placeAssigned_step (h : e.Sound) (wire : TraceId) (hid : s.id.isUnassigned = false) :
    Step e wire s (e.placeAssigned wire s).1 (e.placeAssigned wire s).2 := by
  by_cases hseen : s.id ∈ (e.members (e.target wire s)).seen
  · exact .repeated (placeAssigned_repeated h hid hseen)
  · exact .admitted (placeAssigned_admitted h hid hseen)

end Assigned

/-- **What placing a span does** to a sound engine. -/
theorem step_place {e : Engine} (h : e.Sound) (wire : TraceId) (s : Span) :
    Step e wire s (e.place wire s).1 (e.place wire s).2 := by
  cases hid : s.id.isUnassigned with
  | true =>
    rw [place_unassigned hid]
    exact placeUnassigned_step h wire hid
  | false =>
    rw [place_assigned hid]
    exact placeAssigned_step h wire hid

end TraceWeave.Grouping.Engine
