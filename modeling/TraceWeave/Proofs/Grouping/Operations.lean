import TraceWeave.Proofs.Grouping.Sound

/-!
# What the operations of the engine do

Placing a span is put together from five operations. Each has one statement here, a structure that
gives the keys and members of the groups and what both indices find after the operation:

* `route_routed`: choosing the group of a span;
* `openGroup_opened`: making a group the one touched last, with another one going for it;
* `members_record`, `homes_record`: recording a span;
* `awaited_await`: waiting for the parent of a span;
* `welcome_welcomed`: taking in the group that waited for a span.
-/

namespace TraceWeave.Grouping

/-- With a span recorded, and kept if there is room. -/
def Members.add (limits : Limits) (m : Members) (s : Span) : Members :=
  { (Engine.keepSpan limits m s).1 with seen := m.seen ++ [s.id] }

/-- With the members of another group taken over. -/
def Members.absorb (m moving : Members) : Members where
  spans := m.spans ++ moving.spans.filter fun s => s.id ∉ m.seen
  seen := m.seen ++ moving.seen.filter (· ∉ m.seen)

namespace Engine

theorem filter_of_all {α : Type} {o : Option α} {p : α → Bool}
    (h : ∀ a, o = some a → p a = true) : o.filter p = o := by
  cases o with
  | none => rfl
  | some a => simp [h a rfl]

/-! ## Opening a group -/

/-- Forgetting a group: its key, its members, and all that the indices hold about it. -/
structure Forgot (e : Engine) (gone : TraceId) (e' : Engine) : Prop where
  limits_eq : e'.limits = e.limits
  keys_eq : e'.groups.keys = e.groups.keys.filter (· ≠ gone)
  members_eq : ∀ k, e'.members k = if gone = k then {} else e.members k
  homes_eq : ∀ id, e'.homes.find? id = (e.homes.find? id).filter (gone ≠ ·)
  awaited_eq : ∀ id, e'.awaited.find? id = (e.awaited.find? id).filter fun owner =>
    gone ≠ owner ∧ id ∉ (e.members gone).seen

theorem getLast?_of_ne_nil {e : Engine} (hne : e.groups ≠ []) :
    ∃ gone m, e.groups.getLast? = some (gone, m) := by
  obtain ⟨⟨gone, m⟩, hlast⟩ := Option.isSome_iff_exists.mp (List.getLast?_isSome.mpr hne)
  exact ⟨gone, m, hlast⟩

theorem Sound.members_last {e : Engine} (h : e.Sound) {gone : TraceId} {m : Members}
    (hlast : e.groups.getLast? = some (gone, m)) : e.members gone = m := by
  obtain ⟨front, hfront⟩ := List.getLast?_eq_some_iff.mp hlast
  have hnodup := h.keys_nodup
  rw [hfront] at hnodup
  simp only [Recency.keys, List.map_append, List.map_cons, List.map_nil] at hnodup
  have hnot : gone ∉ Recency.keys front := fun hmem =>
    List.disjoint_of_nodup_append hnodup hmem (List.mem_singleton.mpr rfl)
  rw [members, hfront, Recency.find?_append, Recency.find?_eq_none_iff.mpr hnot]
  simp [Recency.find?]

theorem filter_ne_of_not_mem {l : List TraceId} {key : TraceId} (h : key ∉ l) :
    l.filter (· ≠ key) = l := by
  rw [List.filter_eq_self]
  intro k hk
  exact decide_eq_true fun heq => h (heq ▸ hk)

theorem keys_dropLast_eq_filter {l : List TraceId} (hnodup : l.Nodup) {gone : TraceId}
    (hlast : l.getLast? = some gone) : l.dropLast = l.filter (· ≠ gone) := by
  obtain ⟨front, rfl⟩ := List.getLast?_eq_some_iff.mp hlast
  have hnot : gone ∉ front := fun hmem =>
    List.disjoint_of_nodup_append hnodup hmem (List.mem_singleton.mpr rfl)
  simp only [List.dropLast_concat, List.filter_append, filter_ne_of_not_mem hnot]
  simp

/-- The index entries of the group that goes are found by the spans that it has seen, since no
other entry names it. -/
theorem evictOldest_forgot {e : Engine} (h : e.Sound) {gone : TraceId} {m : Members}
    (hlast : e.groups.getLast? = some (gone, m)) :
    Forgot e gone e.evictOldest.1 ∧ e.evictOldest.2 = some gone := by
  have hm := h.members_last hlast
  have hkeys : e.groups.keys.getLast? = some gone := by simp [Recency.getLast?_keys, hlast]
  simp only [evictOldest, hlast]
  refine ⟨⟨rfl, ?_, ?_, ?_, ?_⟩, trivial⟩
  · rw [Recency.keys_dropLast]
    exact keys_dropLast_eq_filter h.keys_nodup hkeys
  · intro k
    simp only [members, Recency.find?_dropLast h.keys_nodup hlast]
    split <;> rfl
  · intro id
    rw [Index.find?_keep]
    cases hhome : e.homes.find? id with
    | none => rfl
    | some owner =>
      by_cases howner : owner = gone
      · subst howner
        simp [Option.filter_some, hm ▸ h.home_seen hhome]
      · simp [Option.filter_some, howner, Ne.symm howner]
  · intro id
    rw [Index.find?_keep]
    congr 1
    funext owner
    simp [hm, eq_comm]

/-- What opening the group of a key does, given the group that had to go for it. -/
structure Opened (e : Engine) (key : TraceId) (e' : Engine) (evicted : Option TraceId) : Prop where
  limits_eq : e'.limits = e.limits
  keys_eq : e'.groups.keys =
    key :: e.groups.keys.filter fun k => k ≠ key ∧ evicted ≠ some k
  members_eq : ∀ k, e'.members k = if evicted = some k then {} else e.members k
  homes_eq : ∀ id, e'.homes.find? id = (e.homes.find? id).filter (evicted ≠ some ·)
  awaited_eq : ∀ id, e'.awaited.find? id = (e.awaited.find? id).filter fun owner =>
    evicted ≠ some owner ∧ ∀ gone ∈ evicted, id ∉ (e.members gone).seen
  evicted_eq : evicted =
    if key ∈ e.groups.keys ∨ e.groups.length < e.limits.groups then none
    else e.groups.keys.getLast?

theorem opened_live {e : Engine} {key : TraceId} (hlive : key ∈ e.groups.keys) :
    Opened e key (e.openGroup key).1 (e.openGroup key).2 := by
  have hopen : e.openGroup key = ({ e with groups := e.groups.touch key }, none) := by
    simp [openGroup, find?_of_mem hlive]
  rw [hopen]
  constructor
  · rfl
  · simp [Recency.keys_touch, hlive]
  · simp [members, Recency.find?_touch]
  · exact fun _ => (filter_of_all (by simp)).symm
  · exact fun _ => (filter_of_all (by simp)).symm
  · simp [hlive]

/-- A new group has no members, as it had none before it was there. -/
theorem getD_find?_push {groups : Recency TraceId Members} {key : TraceId}
    (hdead : key ∉ groups.keys) (k : TraceId) :
    ((groups.push key {}).find? k).getD {} = (groups.find? k).getD {} := by
  by_cases hk : key = k
  · subst hk
    simp [Recency.find?_eq_none_iff.mpr hdead]
  · simp [hk]

theorem opened_room {e : Engine} {key : TraceId} (hdead : key ∉ e.groups.keys)
    (hroom : e.groups.length < e.limits.groups) :
    Opened e key (e.openGroup key).1 (e.openGroup key).2 := by
  have hopen : e.openGroup key =
      ({ e with
          groups := e.groups.push key {}
          counters := { e.counters with created := e.counters.created + 1 } }, none) := by
    simp only [openGroup, Recency.find?_eq_none_iff.mpr hdead, Nat.not_le.mpr hroom, if_false]
  rw [hopen]
  constructor
  · rfl
  · simpa using (filter_ne_of_not_mem hdead).symm
  · intro k
    rw [if_neg (by simp)]
    exact getD_find?_push hdead k
  · exact fun _ => (filter_of_all (by simp)).symm
  · exact fun _ => (filter_of_all (by simp)).symm
  · simp [hroom]

theorem opened_full {e : Engine} (h : e.Sound) {key : TraceId} (hdead : key ∉ e.groups.keys)
    (hfull : e.limits.groups ≤ e.groups.length) :
    Opened e key (e.openGroup key).1 (e.openGroup key).2 := by
  have hne : e.groups ≠ [] := by
    intro hnil
    have hpos := e.limits.groups_pos
    simp only [hnil, List.length_nil] at hfull
    omega
  obtain ⟨gone, m, hlast⟩ := getLast?_of_ne_nil hne
  obtain ⟨hforgot, hevicted⟩ := evictOldest_forgot h hlast
  have hopen : e.openGroup key =
      ({ e.evictOldest.1 with
          groups := e.evictOldest.1.groups.push key {}
          counters :=
            { e.evictOldest.1.counters with created := e.evictOldest.1.counters.created + 1 } },
        some gone) := by
    simp only [openGroup, Recency.find?_eq_none_iff.mpr hdead, hfull, if_true, hevicted]
  rw [hopen]
  constructor
  · exact hforgot.limits_eq
  · simp only [Recency.keys_push, hforgot.keys_eq, List.cons.injEq, true_and]
    apply List.filter_congr
    intro k hk
    have hnekey : k ≠ key := fun heq => hdead (heq ▸ hk)
    simp [hnekey, eq_comm]
  · intro k
    have hdead' : key ∉ e.evictOldest.1.groups.keys := by
      rw [hforgot.keys_eq]
      exact fun hmem => hdead (List.mem_filter.mp hmem).1
    refine (getD_find?_push hdead' k).trans ((hforgot.members_eq k).trans ?_)
    simp
  · intro id
    rw [hforgot.homes_eq]
    simp
  · intro id
    rw [hforgot.awaited_eq]
    simp
  · simp [hdead, Nat.not_lt.mpr hfull, Recency.getLast?_keys, hlast]

theorem openGroup_opened {e : Engine} (h : e.Sound) (key : TraceId) :
    Opened e key (e.openGroup key).1 (e.openGroup key).2 := by
  by_cases hlive : key ∈ e.groups.keys
  · exact opened_live hlive
  · rcases Nat.lt_or_ge e.groups.length e.limits.groups with hroom | hfull
    · exact opened_room hlive hroom
    · exact opened_full h hlive hfull

/-! ## Choosing a group -/

/-- The group that a span with an identifier goes to. -/
def target (e : Engine) (wire : TraceId) (s : Span) : TraceId :=
  (s.parent.bind e.homes.find?).getD ((e.awaited.find? s.id).getD wire)

/-- Choosing the group of a span changes nothing but that the group no longer waits for it. -/
structure Routed (e : Engine) (s : Span) (e' : Engine) : Prop where
  limits_eq : e'.limits = e.limits
  groups_eq : e'.groups = e.groups
  homes_eq : e'.homes = e.homes
  awaited_eq : ∀ id, e'.awaited.find? id =
    if id = s.id ∧ s.parent.bind e.homes.find? = none then none else e.awaited.find? id

theorem route_routed (e : Engine) (wire : TraceId) (s : Span) :
    (e.route wire s).1 = e.target wire s ∧ Routed e s (e.route wire s).2 := by
  cases hparent : s.parent.bind e.homes.find? with
  | some group =>
    simp only [route, target, hparent]
    exact ⟨rfl, rfl, rfl, rfl, by simp [hparent]⟩
  | none =>
    cases hawaited : e.awaited.find? s.id with
    | some group =>
      simp only [route, target, hparent, hawaited]
      exact ⟨rfl, rfl, rfl, rfl, by simp [hparent]⟩
    | none =>
      simp only [route, target, hparent, hawaited]
      refine ⟨rfl, rfl, rfl, rfl, ?_⟩
      intro id
      split
      · next h => rw [h.1, hawaited]
      · rfl

theorem Routed.members_eq {e e' : Engine} {s : Span} (h : Routed e s e') (key : TraceId) :
    e'.members key = e.members key := by
  simp [members, h.groups_eq]

theorem Routed.sound {e e' : Engine} {s : Span} (h : Routed e s e') (hsound : e.Sound) :
    e'.Sound where
  keys_nodup := h.groups_eq ▸ hsound.keys_nodup
  length_le := by
    rw [h.groups_eq, h.limits_eq]
    exact hsound.length_le
  members_sound := by
    intro key hkey
    rw [h.members_eq]
    exact hsound.members_sound key (h.groups_eq ▸ hkey)
  home_seen := by
    intro id key hhome
    rw [h.members_eq]
    exact hsound.home_seen (h.homes_eq ▸ hhome)
  awaited_live := by
    intro id key hawaited
    rw [h.awaited_eq] at hawaited
    split at hawaited
    · cases hawaited
    · exact h.groups_eq ▸ hsound.awaited_live hawaited

/-! ## Recording a span -/

theorem groups_record (e : Engine) (key : TraceId) (s : Span) :
    (e.record key s).1.groups = e.groups.update key fun _ => (e.members key).add e.limits s := by
  simp only [record, Members.add, keepSpan]
  split <;> rfl

theorem members_record {e : Engine} {key : TraceId} (hlive : key ∈ e.groups.keys) (s : Span)
    (k : TraceId) :
    (e.record key s).1.members k = if key = k then (e.members key).add e.limits s
      else e.members k := by
  by_cases h : key = k
  · subst h
    apply members_of_find?
    simp [groups_record, Recency.find?_update, find?_of_mem hlive]
  · simp [members, groups_record, Recency.find?_update, h]

theorem keys_record (e : Engine) (key : TraceId) (s : Span) :
    (e.record key s).1.groups.keys = e.groups.keys := by
  rw [groups_record, Recency.keys_update]

theorem homes_record (e : Engine) (key : TraceId) (s : Span) (id : SpanId) :
    (e.record key s).1.homes.find? id = if id = s.id then some key else e.homes.find? id :=
  Index.find?_insert _ _ _ _

/-! ## Waiting for the parent -/

@[simp] theorem limits_await (e : Engine) (parent : Option SpanId) (key : TraceId) :
    (e.await parent key).limits = e.limits := by
  cases parent <;> rfl

@[simp] theorem groups_await (e : Engine) (parent : Option SpanId) (key : TraceId) :
    (e.await parent key).groups = e.groups := by
  cases parent <;> rfl

@[simp] theorem homes_await (e : Engine) (parent : Option SpanId) (key : TraceId) :
    (e.await parent key).homes = e.homes := by
  cases parent <;> rfl

@[simp] theorem members_await (e : Engine) (parent : Option SpanId) (key k : TraceId) :
    (e.await parent key).members k = e.members k := by
  simp [members]

theorem awaited_await (e : Engine) (parent : Option SpanId) (key : TraceId) (id : SpanId) :
    (e.await parent key).awaited.find? id =
      (e.awaited.find? id).or (if parent = some id then some key else none) := by
  cases parent with
  | none => simp [await]
  | some p =>
    simp only [await, Index.find?_insertNew, Option.some.injEq]
    by_cases h : id = p
    · subst h
      cases e.awaited.find? id <;> simp
    · simp [h, Ne.symm h]

/-! ## Taking in the group that waited -/

/-- What a span does to the group that waited for it, given the group that was merged. -/
structure Welcomed (e : Engine) (id : SpanId) (key : TraceId) (e' : Engine)
    (mergedFrom : Option TraceId) : Prop where
  limits_eq : e'.limits = e.limits
  mergedFrom_eq : mergedFrom = (e.awaited.find? id).filter (· ≠ key)
  keys_eq : e'.groups.keys = e.groups.keys.filter (mergedFrom ≠ some ·)
  members_self : e'.members key =
    mergedFrom.elim (e.members key) fun src => (e.members key).absorb (e.members src)
  members_other : ∀ k ≠ key, e'.members k = if mergedFrom = some k then {} else e.members k
  homes_eq : ∀ x, e'.homes.find? x =
    if ∃ src ∈ mergedFrom, x ∈ (e.members src).seen then some key else e.homes.find? x
  awaited_eq : ∀ x, e'.awaited.find? x =
    if x = id then none
    else (e.awaited.find? x).map fun owner => if mergedFrom = some owner then key else owner

theorem welcome_alone {e : Engine} {id : SpanId} {key : TraceId}
    (hawaited : (e.awaited.find? id).filter (· ≠ key) = none) :
    Welcomed e id key (e.welcome id key).1 (e.welcome id key).2 := by
  have hwelcome : (e.welcome id key).2 = none ∧ (e.welcome id key).1.limits = e.limits ∧
      (e.welcome id key).1.groups = e.groups ∧ (e.welcome id key).1.homes = e.homes ∧
      ∀ x, (e.welcome id key).1.awaited.find? x = if x = id then none else e.awaited.find? x := by
    cases h : e.awaited.find? id with
    | none =>
      simp only [welcome, h]
      refine ⟨trivial, trivial, trivial, trivial, ?_⟩
      intro x
      split
      · next hx => rw [hx, h]
      · rfl
    | some waiting =>
      rw [h] at hawaited
      have hwaiting : waiting = key := by simpa [Option.filter_some] using hawaited
      subst hwaiting
      simp [welcome, h, merge?]
  obtain ⟨hnone, hlimits, hgroups, hhomes, hfind⟩ := hwelcome
  rw [hnone]
  constructor
  · exact hlimits
  · exact hawaited.symm
  · simp [hgroups]
  · simp [members, hgroups]
  · simp [members, hgroups]
  · simp [hhomes]
  · simp [hfind]

theorem welcome_merged {e : Engine} {id : SpanId} {key src : TraceId}
    (hawaited : e.awaited.find? id = some src) (hne : src ≠ key)
    (hsrc : src ∈ e.groups.keys) (hkey : key ∈ e.groups.keys) :
    Welcomed e id key (e.welcome id key).1 (e.welcome id key).2 := by
  have hmerge : ∃ e', e.welcome id key = (e', some src) ∧ e'.limits = e.limits ∧
      e'.groups = (e.groups.erase src).update key (fun m => m.absorb (e.members src)) ∧
      e'.homes = e.homes.insertAll (e.members src).seen key ∧
      e'.awaited =
        (e.awaited.erase id).mapValues fun owner => if owner = src then key else owner := by
    simp only [welcome, hawaited, merge?, hne, if_false, find?_of_mem hsrc, find?_of_mem hkey]
    exact ⟨_, rfl, rfl, rfl, rfl, rfl⟩
  obtain ⟨e', hwelcome, hlimits, hgroups, hhomes, hfind⟩ := hmerge
  rw [hwelcome]
  constructor
  · exact hlimits
  · simp [hawaited, Option.filter_some, hne]
  · rw [hgroups, Recency.keys_update, Recency.keys_erase]
    simp [eq_comm]
  · apply members_of_find?
    simp [hgroups, Recency.find?_update, Recency.find?_erase, hne, find?_of_mem hkey]
  · intro k hk
    simp only [members, hgroups, Recency.find?_update, Recency.find?_erase, Ne.symm hk, if_false,
      Option.some.injEq]
    split <;> rfl
  · intro x
    simp [hhomes]
  · intro x
    rw [hfind, Index.find?_mapValues, Index.find?_erase]
    split
    · rfl
    · simp [eq_comm]

theorem welcome_welcomed {e : Engine} {id : SpanId} {key : TraceId} (hkey : key ∈ e.groups.keys)
    (hlive : ∀ src, e.awaited.find? id = some src → src ∈ e.groups.keys) :
    Welcomed e id key (e.welcome id key).1 (e.welcome id key).2 := by
  cases hawaited : e.awaited.find? id with
  | none => exact welcome_alone (by simp [hawaited])
  | some src =>
    by_cases hne : src = key
    · exact welcome_alone (by simp [hawaited, Option.filter_some, hne])
    · exact welcome_merged hawaited hne (hlive src hawaited) hkey

end Engine

end TraceWeave.Grouping
