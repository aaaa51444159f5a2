import TraceWeave.Proofs.Grouping.Effect

/-!
# Links that become known

A span brings up to two links: to its parent, and to the group that has been waiting for it. Both
are honoured by the placement of the span itself. It goes to the home of its parent, if the parent
has one. The group that waited either is the one that the span goes to, or is merged into it, so
that everything that had its home there, and everything that was awaited there, is with the span
afterwards.

* `Step.group_of_awaited`: a span whose parent has no home goes where it is awaited;
* `Step.awaiting_joined`: the group that waited is the group of the span, or is merged into it;
* `place_joins`: homes and waiting entries after the placement.
-/

namespace TraceWeave.Grouping.Engine

variable {e e' : Engine} {wire : TraceId} {s : Span} {r : Report} {key : TraceId}

/-! ## One placement -/

theorem Step.live (hstep : Step e wire s e' r) (h : e.Sound) (hid : s.id.isUnassigned = false) :
    r.group ∈ e'.groups.keys := by
  refine hstep.mem_keys_iff.mpr (.inl ⟨?_, rfl⟩)
  rw [ne_eq, hstep.unplaced_iff h, hid]
  simp

theorem Step.group_of_awaited (hstep : Step e wire s e' r) (hid : s.id.isUnassigned = false)
    (horphan : s.parent.bind e.homes.find? = none) (hawaited : e.awaited.find? s.id = some key) :
    r.group = key := by
  rw [hstep.group_eq, destination, if_neg (by simp [hid]), target, horphan, hawaited]
  rfl

/-- The group that waited for a span is the one that the span goes to, or is merged into it. -/
theorem Step.awaiting_joined (hstep : Step e wire s e' r) (hrecords : r.Records s)
    (hawaited : e.awaited.find? s.id = some key) : key = r.group ∨ r.mergedFrom = some key := by
  cases hhome : s.parent.bind e.homes.find? with
  | none => exact .inl (hstep.group_of_awaited hrecords.1 hhome hawaited).symm
  | some home =>
    by_cases hgroup : key = r.group
    · exact .inl hgroup
    · right
      rw [hstep.mergedFrom_eq, if_pos hrecords, hhome, Option.bind_some, hawaited,
        Option.filter_some_pos (by simpa using hgroup)]

/-- A span that is awaited goes to a group that is there, so none has to go for it. -/
theorem Step.evicted_of_awaited (hstep : Step e wire s e' r) (h : e.Sound)
    (hid : s.id.isUnassigned = false) (hawaited : e.awaited.find? s.id = some key) :
    r.evicted = none := by
  refine hstep.evicted_of_live h ?_
  cases hhome : s.parent.bind e.homes.find? with
  | none =>
    rw [hstep.group_of_awaited hid hhome hawaited]
    exact h.awaited_live hawaited
  | some home =>
    obtain ⟨p, -, hp⟩ := Option.bind_eq_some_iff.mp hhome
    rw [hstep.group_of_home hhome]
    exact h.home_live hp

/-- What had its home in the group that waited has it with the span. -/
theorem Step.homes_joined (hstep : Step e wire s e' r) (h : e.Sound) (hrecords : r.Records s)
    (hawaited : e.awaited.find? s.id = some key) {id : SpanId}
    (hhome : e.homes.find? id = some key) : e'.homes.find? id = some r.group := by
  rw [hstep.homes_eq]
  split
  · rfl
  · next hstays =>
    have hgroup : key = r.group := (hstep.awaiting_joined hrecords hawaited).resolve_right
      fun hmerged => hstays ⟨hrecords, .inr ⟨key, hmerged, h.home_seen hhome⟩⟩
    rw [hhome, hstep.evicted_of_awaited h hrecords.1 hawaited, hgroup]
    rfl

/-- What else was awaited by the group that waited is awaited by the group of the span. -/
theorem Step.awaited_joined (hstep : Step e wire s e' r) (h : e.Sound) (hrecords : r.Records s)
    (hawaited : e.awaited.find? s.id = some key) {id : SpanId} (hne : id ≠ s.id)
    (hwaiting : e.awaited.find? id = some key) : e'.awaited.find? id = some r.group := by
  rw [hstep.awaited_eq, if_neg fun hand => hne hand.1, hwaiting,
    hstep.evicted_of_awaited h hrecords.1 hawaited, filter_of_all (by simp), Option.some_or,
    Option.map_some]
  rcases hstep.awaiting_joined hrecords hawaited with hgroup | hmerged
  · rw [hgroup, ite_self]
  · rw [if_pos hmerged]

/-! ## Runs -/

/-- **Links are honoured when they become known.** A span whose parent has a home goes there, and
the group stays. If a group was waiting for the span and the span is new to the group that it goes
to, it is together afterwards with all that had its home in the group that waited; that group waits
for it no longer, and whatever else was awaited there is awaited by the group of the span. -/
theorem place_joins (groups spans : Nat) (steps : List (TraceId × Span)) (wire : TraceId)
    (s : Span) (hid : s.id.isUnassigned = false) :
    let e := ((new groups spans).run steps).1
    let e' := (e.place wire s).1
    let r := (e.place wire s).2
    (∀ p home, s.parent = some p → e.groupOf p = some home →
        r.group = home ∧ e'.containsGroup home = true) ∧
      ∀ waiting, e.awaitingParent s.id = some waiting → r.outcome ≠ .duplicate →
        e'.groupOf s.id = some r.group ∧
          (∀ id, e.groupOf id = some waiting → e'.groupOf id = some r.group) ∧
          e'.awaitingParent s.id = none ∧
          ∀ id ≠ s.id, e.awaitingParent id = some waiting →
            e'.awaitingParent id = some r.group := by
  intro e e' r
  have hsound : e.Sound := sound_run groups spans steps
  have hstep : Step e wire s e' r := step_place hsound wire s
  refine ⟨?_, ?_⟩
  · intro p home hparent hhome
    have hbind : s.parent.bind e.homes.find? = some home := by rw [hparent]; exact hhome
    have hgroup : r.group = home := hstep.group_of_home hbind
    exact ⟨hgroup, containsGroup_iff.mpr (hgroup ▸ hstep.live hsound hid)⟩
  · intro waiting hawaited hnew
    have hrecords : r.Records s := ⟨hid, hnew⟩
    have hadmitted := hstep.admitted_of_records hrecords
    exact ⟨hadmitted.homes_self, fun id hhome => hstep.homes_joined hsound hrecords hawaited hhome,
      hadmitted.awaited_self,
      fun id hne hwaiting => hstep.awaited_joined hsound hrecords hawaited hne hwaiting⟩

/-- The span between a root and a group that has been waiting for it, and for another span. -/
theorem place_joins_between :
    let steps : List (TraceId × Span) :=
      [(⟨"w1"⟩, bareSpan "a" none), (⟨"w2"⟩, bareSpan "c" (some "b")),
        (⟨"w2"⟩, bareSpan "d" (some "q"))]
    let e := ((new 10 10).run steps).1
    let e' := (e.place ⟨"w3"⟩ (bareSpan "b" (some "a"))).1
    let r := (e.place ⟨"w3"⟩ (bareSpan "b" (some "a"))).2
    (bareSpan "b" (some "a")).id.isUnassigned = false ∧
      e.groupOf ⟨"a"⟩ = some ⟨"w1"⟩ ∧ e.awaitingParent ⟨"b"⟩ = some ⟨"w2"⟩ ∧
      r.outcome ≠ .duplicate ∧ r.group = ⟨"w1"⟩ ∧ e'.containsGroup ⟨"w1"⟩ = true ∧
      e'.groupOf ⟨"b"⟩ = some r.group ∧ e'.groupOf ⟨"d"⟩ = some r.group ∧
      e'.awaitingParent ⟨"b"⟩ = none ∧ e'.awaitingParent ⟨"q"⟩ = some r.group := by
  intro steps e e' r
  have hid : (bareSpan "b" (some "a")).id.isUnassigned = false := by decide
  have hhome : e.groupOf ⟨"a"⟩ = some ⟨"w1"⟩ := by decide
  have hawaited : e.awaitingParent ⟨"b"⟩ = some ⟨"w2"⟩ := by decide
  have hnew : r.outcome ≠ .duplicate := by decide
  obtain ⟨hparent, hwaiting⟩ := place_joins 10 10 steps ⟨"w3"⟩ (bareSpan "b" (some "a")) hid
  obtain ⟨hgroup, hlive⟩ := hparent ⟨"a"⟩ ⟨"w1"⟩ rfl hhome
  obtain ⟨hself, hhomes, hended, hawaiting⟩ := hwaiting ⟨"w2"⟩ hawaited hnew
  exact ⟨hid, hhome, hawaited, hnew, hgroup, hlive, hself, hhomes ⟨"d"⟩ (by decide), hended,
    hawaiting ⟨"q"⟩ (by decide) (by decide)⟩

end TraceWeave.Grouping.Engine
