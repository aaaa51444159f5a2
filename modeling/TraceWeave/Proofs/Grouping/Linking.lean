import TraceWeave.Proofs.Grouping.Invariant
import Mathlib.Data.List.Induction

/-!
# Linking

Children and parents come in any order and under any trace identifiers. If no identifier comes
twice and no group has to go, the engine knows of every span that was placed, and for a parent that
has not come it knows the group of the child that came first. `Linked` says what follows for those
that have come:

* a child that comes after its parent is with its parent from then on;
* of the children that come before their parent, the first one is with it from then on.

Nothing brings the other early children there: `linked_iff` says that all children are with their
parent exactly if those that came before it are together, and `not_linked` is a run in which they
are not.
-/

namespace TraceWeave.Grouping

/-- Where a placement leaves what was in a group before. -/
def Report.moved (r : Report) (key : TraceId) : TraceId :=
  if r.mergedFrom = some key then r.group else key

theorem Report.moved_group (r : Report) : r.moved r.group = r.group :=
  ite_self _

theorem Report.moved_merged {r : Report} {src : TraceId} (hsrc : r.mergedFrom = some src) :
    r.moved src = r.group :=
  if_pos hsrc

theorem Report.moved_other {r : Report} {key : TraceId} (hkey : r.mergedFrom ≠ some key) :
    r.moved key = key :=
  if_neg hkey

namespace Engine

variable {e e' : Engine} {wire : TraceId} {s : Span} {r : Report} {l : List Span}

/-- The spans with an identifier, in the order in which they are placed. -/
def placed (steps : List (TraceId × Span)) : List Span :=
  (steps.map (·.2)).filter (!·.id.isUnassigned)

/-- What an engine knows of the spans that were placed, if no identifier came twice and no group
had to go. -/
structure Linked (l : List Span) (e : Engine) : Prop where
  seen_homed : ∀ {id key}, id ∈ (e.members key).seen → e.homes.find? id = some key
  homed_iff : ∀ {id}, (e.homes.find? id).isSome = true ↔ id ∈ l.map (·.id)
  awaited_eq : ∀ {id}, id ∉ l.map (·.id) →
    e.awaited.find? id = (l.find? (·.parent = some id)).bind fun c => e.homes.find? c.id
  later_child : ∀ {before p after}, l = before ++ p :: after →
    ∀ c ∈ after, c.parent = some p.id → e.homes.find? c.id = e.homes.find? p.id
  first_child : ∀ {before p after}, l = before ++ p :: after →
    ∀ c, before.find? (·.parent = some p.id) = some c → e.homes.find? c.id = e.homes.find? p.id

theorem linked_new (groups spans : Nat) : (new groups spans).Linked [] where
  seen_homed := by simp [new, members, Recency.find?]
  homed_iff := by simp [new]
  awaited_eq := by simp [new]
  later_child := by simp
  first_child := by simp

/-! ## One placement -/

theorem Linked.homes_assigned (hlinked : e.Linked l) {c : Span} (hmem : c ∈ l) :
    ∃ key, e.homes.find? c.id = some key :=
  Option.isSome_iff_exists.mp (hlinked.homed_iff.mpr (List.mem_map_of_mem hmem))

/-- Neither the groups that have been seen nor the indices change with a span that has no
identifier. -/
theorem Linked.congr (hlinked : e.Linked l) (hseen : ∀ key, (e'.members key).seen =
    (e.members key).seen) (hhomes : e'.homes = e.homes) (hawaited : e'.awaited = e.awaited) :
    e'.Linked l where
  seen_homed := by
    intro id key hmem
    rw [hseen] at hmem
    rw [hhomes]
    exact hlinked.seen_homed hmem
  homed_iff := by
    rw [hhomes]
    exact hlinked.homed_iff
  awaited_eq := by
    rw [hhomes, hawaited]
    exact hlinked.awaited_eq
  later_child := by
    rw [hhomes]
    exact hlinked.later_child
  first_child := by
    rw [hhomes]
    exact hlinked.first_child

namespace Admitted

/-- Every span that was placed before stays in its group, or goes with it. -/
theorem homes_moved (hstep : Admitted e wire s e' r) (h : e.Sound) (hlinked : e.Linked l)
    (hkept : r.evicted = none) {id : SpanId} (hne : id ≠ s.id) :
    e'.homes.find? id = (e.homes.find? id).map r.moved := by
  rw [hstep.homes_other id hne, hkept]
  split
  · next htaken =>
    obtain ⟨src, hsrc, hseen⟩ := htaken
    rw [hlinked.seen_homed hseen, Option.map_some, Report.moved_merged hsrc]
  · next htaken =>
    rw [filter_of_all (by simp)]
    cases hhome : e.homes.find? id with
    | none => rfl
    | some key =>
      have hmerged : r.mergedFrom ≠ some key := fun hsrc => htaken ⟨key, hsrc, h.home_seen hhome⟩
      rw [Option.map_some, Report.moved_other hmerged]

theorem awaited_moved (hstep : Admitted e wire s e' r) (hkept : r.evicted = none) {id : SpanId}
    (hne : id ≠ s.id) : e'.awaited.find? id =
      ((e.awaited.find? id).or (if s.parent = some id then some r.group else none)).map
        r.moved := by
  rw [hstep.awaited_other id hne, hkept, filter_of_all (by simp)]
  rfl

end Admitted

theorem append_singleton_eq_split {before after : List Span} {p : Span}
    (hsplit : l ++ [s] = before ++ p :: after) :
    (∃ rest, after = rest ++ [s] ∧ l = before ++ p :: rest) ∨
      (after = [] ∧ p = s ∧ before = l) := by
  rcases List.eq_nil_or_concat after with rfl | ⟨rest, last, rfl⟩
  · obtain ⟨hl, hs⟩ := List.append_inj' hsplit rfl
    exact .inr ⟨rfl, (List.singleton_inj.mp hs).symm, hl.symm⟩
  · rw [List.concat_eq_append, ← List.cons_append, ← List.append_assoc] at hsplit
    obtain ⟨hl, hs⟩ := List.append_inj' hsplit rfl
    obtain rfl := List.singleton_inj.mp hs
    exact .inl ⟨rest, List.concat_eq_append, hl⟩

namespace Admitted

theorem seen_homed (hstep : Admitted e wire s e' r) (h : e.Sound) (hlinked : e.Linked l)
    (hnew : s.id ∉ l.map (·.id)) (hkept : r.evicted = none) {id : SpanId} {key : TraceId}
    (hseen : id ∈ (e'.members key).seen) : e'.homes.find? id = some key := by
  have hhomeless : e.homes.find? s.id = none := by
    rw [← Option.not_isSome_iff_eq_none, hlinked.homed_iff]
    exact hnew
  by_cases hgroup : key = r.group
  · subst hgroup
    by_cases hid : id = s.id
    · rw [hid, hstep.homes_self]
    · rw [hstep.homes_moved h hlinked hkept hid]
      rcases hstep.seen_self.mp hseen with hold | hself | ⟨src, hsrc, htaken⟩
      · rw [hlinked.seen_homed hold, Option.map_some, Report.moved_group]
      · exact absurd hself hid
      · rw [hlinked.seen_homed htaken, Option.map_some, Report.moved_merged hsrc]
  · rw [hstep.members_other key hgroup, hkept] at hseen
    split at hseen
    · simp at hseen
    · next hmerged =>
      have hhome := hlinked.seen_homed hseen
      have hid : id ≠ s.id := by
        rintro rfl
        rw [hhomeless] at hhome
        cases hhome
      rw [hstep.homes_moved h hlinked hkept hid, hhome, Option.map_some,
        Report.moved_other fun hsrc => hmerged (.inr hsrc)]

/-- The child that came first finds its parent, whichever of the two routes the parent takes: to
the child, or to its own parent, with the child's group merged into that one. -/
theorem first_child_self (hstep : Admitted e wire s e' r) (h : e.Sound) (hlinked : e.Linked l)
    (hnew : s.id ∉ l.map (·.id)) (hkept : r.evicted = none) {c : Span}
    (hfirst : l.find? (·.parent = some s.id) = some c) :
    e'.homes.find? c.id = some r.group := by
  have hmem : c ∈ l := List.mem_of_find?_eq_some hfirst
  have hne : c.id ≠ s.id := fun heq => hnew (heq ▸ List.mem_map_of_mem hmem)
  obtain ⟨key, hkey⟩ := hlinked.homes_assigned hmem
  have hawaited : e.awaited.find? s.id = some key := by
    rw [hlinked.awaited_eq hnew, hfirst]
    exact hkey
  rw [hstep.homes_moved h hlinked hkept hne, hkey, Option.map_some]
  by_cases hgroup : key = r.group
  · rw [hgroup, Report.moved_group]
  · have hmerged : r.mergedFrom = some key := by
      rw [hstep.mergedFrom_eq, hawaited]
      cases hhome : s.parent.bind e.homes.find? with
      | none =>
        -- An orphan goes to the group that waits for it.
        refine absurd ?_ hgroup
        rw [hstep.group_eq, target, hhome, hawaited]
        rfl
      | some _ => simp [hgroup]
    rw [Report.moved_merged hmerged]

/-- A span whose parent has come goes to its parent. -/
theorem later_child_self (hstep : Admitted e wire s e' r) (h : e.Sound) (hlinked : e.Linked l)
    (hnew : s.id ∉ l.map (·.id)) (hkept : r.evicted = none) {p : Span} (hp : p ∈ l)
    (hparent : s.parent = some p.id) : e'.homes.find? p.id = some r.group := by
  have hne : p.id ≠ s.id := fun heq => hnew (heq ▸ List.mem_map_of_mem hp)
  obtain ⟨key, hkey⟩ := hlinked.homes_assigned hp
  have hhome : s.parent.bind e.homes.find? = some key := by rw [hparent]; exact hkey
  have hgroup : r.group = key := hstep.group_eq.trans (target_of_home hhome)
  rw [hstep.homes_moved h hlinked hkept hne, hkey, Option.map_some, ← hgroup, Report.moved_group]

theorem linked (hstep : Admitted e wire s e' r) (h : e.Sound) (hlinked : e.Linked l)
    (hnew : s.id ∉ l.map (·.id)) (hkept : r.evicted = none) : e'.Linked (l ++ [s]) := by
  have hne : ∀ {c}, c ∈ l → c.id ≠ s.id := fun hmem heq => hnew (heq ▸ List.mem_map_of_mem hmem)
  have hmoved : ∀ {c}, c ∈ l → e'.homes.find? c.id = (e.homes.find? c.id).map r.moved :=
    fun hmem => hstep.homes_moved h hlinked hkept (hne hmem)
  refine ⟨hstep.seen_homed h hlinked hnew hkept, ?_, ?_, ?_, ?_⟩
  · intro id
    rw [List.map_append, List.mem_append, List.map_singleton, List.mem_singleton]
    by_cases hid : id = s.id
    · simp [hid, hstep.homes_self]
    · rw [hstep.homes_moved h hlinked hkept hid, Option.isSome_map, hlinked.homed_iff]
      simp [hid]
  · intro id hmissing
    rw [List.map_append, List.mem_append, List.map_singleton, List.mem_singleton,
      not_or] at hmissing
    rw [hstep.awaited_moved hkept hmissing.2, hlinked.awaited_eq hmissing.1, List.find?_append]
    cases hfirst : l.find? (·.parent = some id) with
    | some c =>
      have hmem : c ∈ l := List.mem_of_find?_eq_some hfirst
      obtain ⟨key, hkey⟩ := hlinked.homes_assigned hmem
      simp [hmoved hmem, hkey]
    | none =>
      by_cases hparent : s.parent = some id
      · simp [hparent, hstep.homes_self, Report.moved_group]
      · simp [hparent]
  · intro before p after hsplit c hc hparent
    rcases append_singleton_eq_split hsplit with ⟨rest, rfl, rfl⟩ | ⟨rfl, -, -⟩
    · have hp : p ∈ before ++ p :: rest := by simp
      rcases List.mem_append.mp hc with hrest | hlast
      · rw [hmoved hp, hmoved (by simp [hrest]), hlinked.later_child rfl c hrest hparent]
      · obtain rfl := List.mem_singleton.mp hlast
        rw [hstep.homes_self, hstep.later_child_self h hlinked hnew hkept hp hparent]
    · cases hc
  · intro before p after hsplit c hfirst
    rcases append_singleton_eq_split hsplit with ⟨rest, rfl, rfl⟩ | ⟨rfl, rfl, rfl⟩
    · have hc : c ∈ before ++ p :: rest :=
        List.mem_append_left _ (List.mem_of_find?_eq_some hfirst)
      have hp : p ∈ before ++ p :: rest := by simp
      rw [hmoved hc, hmoved hp, hlinked.first_child rfl c hfirst]
    · rw [hstep.first_child_self h hlinked hnew hkept hfirst, hstep.homes_self]

end Admitted

/-- A placement keeps what the engine knows, if the identifier is new and no group has to go. -/
theorem Step.linked (hstep : Step e wire s e' r) (h : e.Sound) (hlinked : e.Linked l)
    (hnodup : (l.map (·.id) ++ (placed [(wire, s)]).map (·.id)).Nodup)
    (hkept : r.evicted = none) : e'.Linked (l ++ placed [(wire, s)]) := by
  cases hstep with
  | unplaced hstep =>
    have hnone : placed [(wire, s)] = [] := by simp [placed, hstep.unassigned]
    rw [hnone, List.append_nil, hstep.engine_eq]
    exact hlinked.congr (fun _ => rfl) rfl rfl
  | followed hstep =>
    have hnone : placed [(wire, s)] = [] := by simp [placed, hstep.unassigned]
    rw [hnone, List.append_nil]
    exact hlinked.congr hstep.seen_eq hstep.homes_eq hstep.awaited_eq
  | repeated hstep =>
    have hone : placed [(wire, s)] = [s] := by simp [placed, hstep.assigned]
    have hmem : s.id ∈ l.map (·.id) := hlinked.homed_iff.mp (by
      rw [hlinked.seen_homed hstep.seen]
      rfl)
    rw [hone] at hnodup
    exact absurd rfl ((List.nodup_append.mp hnodup).2.2 s.id hmem s.id (by simp))
  | admitted hstep =>
    have hone : placed [(wire, s)] = [s] := by simp [placed, hstep.assigned]
    rw [hone] at hnodup ⊢
    refine hstep.linked h hlinked (fun hmem => ?_) hkept
    exact (List.nodup_append.mp hnodup).2.2 s.id hmem s.id (by simp) rfl

/-! ## Runs -/

theorem placed_append (first second : List (TraceId × Span)) :
    placed (first ++ second) = placed first ++ placed second := by
  simp [placed]

theorem linked_run (groups spans : Nat) (steps : List (TraceId × Span))
    (hnodup : ((placed steps).map (·.id)).Nodup)
    (hkept : ∀ r ∈ ((new groups spans).run steps).2, r.evicted = none) :
    ((new groups spans).run steps).1.Linked (placed steps) := by
  -- From the end: what is known after a placement is about all that came before it.
  induction steps using List.reverseRecOn with
  | nil => exact linked_new groups spans
  | append_singleton steps step ih =>
    obtain ⟨wire, s⟩ := step
    rw [placed_append, List.map_append] at hnodup
    rw [run_append] at hkept ⊢
    rw [placed_append]
    have hbefore := ih (List.nodup_append.mp hnodup).1
      fun r hmem => hkept r (List.mem_append_left _ hmem)
    have hsound := sound_run groups spans steps
    exact (step_place hsound wire s).linked hsound hbefore hnodup
      (hkept _ (List.mem_append_right _ (List.mem_singleton.mpr rfl)))

/-- The children that came before their parent are together with it exactly if they are together
with each other: the first of them is always with it. -/
theorem Linked.early_children_iff (hlinked : e.Linked l) {before after : List Span} {p : Span}
    (hsplit : l = before ++ p :: after) :
    (∀ c ∈ before, c.parent = some p.id → e.homes.find? c.id = e.homes.find? p.id) ↔
      ∀ c ∈ before, ∀ c' ∈ before, c.parent = some p.id → c'.parent = some p.id →
        e.homes.find? c.id = e.homes.find? c'.id := by
  constructor
  · intro hwith c hc c' hc' hparent hparent'
    rw [hwith c hc hparent, hwith c' hc' hparent']
  · intro htogether c hc hparent
    have hsome : (before.find? (·.parent = some p.id)).isSome = true :=
      List.find?_isSome.mpr ⟨c, hc, by simpa using hparent⟩
    obtain ⟨first, hfirst⟩ := Option.isSome_iff_exists.mp hsome
    have hparent' : first.parent = some p.id := by simpa using List.find?_some hfirst
    rw [← hlinked.first_child hsplit first hfirst]
    exact htogether c hc first (List.mem_of_find?_eq_some hfirst) hparent hparent'

/-- **When all children are with their parent.** In a run in which no identifier comes twice and no
group has to go, every placed parent has a group; the children that came after it are in that
group; and all of its children are, exactly if those that came before it are in one group. -/
theorem linked_iff (groups spans : Nat) (steps : List (TraceId × Span))
    (hnodup : ((placed steps).map (·.id)).Nodup)
    (hkept : ∀ r ∈ ((new groups spans).run steps).2, r.evicted = none)
    {before after : List Span} {p : Span} (hsplit : placed steps = before ++ p :: after) :
    let e := ((new groups spans).run steps).1
    (e.groupOf p.id).isSome = true ∧
      (∀ c ∈ after, c.parent = some p.id → e.groupOf c.id = e.groupOf p.id) ∧
      ((∀ c ∈ placed steps, c.parent = some p.id → e.groupOf c.id = e.groupOf p.id) ↔
        ∀ c ∈ before, ∀ c' ∈ before, c.parent = some p.id → c'.parent = some p.id →
          e.groupOf c.id = e.groupOf c'.id) := by
  intro e
  have hlinked : e.Linked (placed steps) := linked_run groups spans steps hnodup hkept
  have hlater := hlinked.later_child hsplit
  refine ⟨hlinked.homed_iff.mpr (by simp [hsplit]), hlater, ?_⟩
  simp only [groupOf]
  rw [← hlinked.early_children_iff hsplit]
  constructor
  · intro hall c hc
    exact hall c (hsplit ▸ List.mem_append_left _ hc)
  · intro hearly c hc hparent
    rw [hsplit, List.mem_append, List.mem_cons] at hc
    rcases hc with hc | rfl | hc
    · exact hearly c hc hparent
    · rfl
    · exact hlater c hc hparent

/-- A child, its sibling's child and the grandparent come before the span that links them, and
another sibling after it. -/
theorem linked_family :
    let steps : List (TraceId × Span) :=
      [(⟨"w1"⟩, bareSpan "c" (some "b")), (⟨"w2"⟩, bareSpan "a" none),
        (⟨"w3"⟩, bareSpan "b" (some "a")), (⟨"w4"⟩, bareSpan "d" (some "b"))]
    let e := ((new 10 10).run steps).1
    ∀ c ∈ placed steps, c.parent = some ⟨"b"⟩ → e.groupOf c.id = e.groupOf ⟨"b"⟩ := by
  intro steps e
  have hnodup : ((placed steps).map (·.id)).Nodup := by decide
  have hkept : ∀ r ∈ ((new 10 10).run steps).2, r.evicted = none := by decide
  have hsplit : placed steps = [bareSpan "c" (some "b"), bareSpan "a" none] ++
      bareSpan "b" (some "a") :: [bareSpan "d" (some "b")] := by decide
  refine (linked_iff 10 10 steps hnodup hkept hsplit).2.2.mpr ?_
  decide

/-- Two children under different trace identifiers come before their parent. Only the group of the
first one waits for the parent, and the second one stays where it is. -/
theorem not_linked :
    let steps : List (TraceId × Span) :=
      [(⟨"w1"⟩, bareSpan "b" (some "a")), (⟨"w2"⟩, bareSpan "c" (some "a")),
        (⟨"w3"⟩, bareSpan "a" none)]
    let e := ((new 10 10).run steps).1
    ((placed steps).map (·.id)).Nodup ∧
      (∀ r ∈ ((new 10 10).run steps).2, r.evicted = none) ∧
      ¬∀ c ∈ placed steps, ∀ p ∈ placed steps, c.parent = some p.id →
        e.groupOf c.id = e.groupOf p.id := by
  decide

end Engine

end TraceWeave.Grouping
