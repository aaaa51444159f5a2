import TraceWeave.Proofs.Grouping.Reports
import Mathlib.Logic.Relation

/-!
# Only related spans are put together

Two placements are related if they came under the same trace identifier or one of the spans names
the other as its parent. What is in one group is connected by such relations: every span that a
group has seen is connected with one that came under the identifier that is the key of the group
(`Reached`). Groups that go leave nothing behind that could bring a stranger into a group, and a
merge is caused by a span that is related to both sides.

* `Reached.connected`: whatever is reached from one key is connected;
* `Step.justified`: a placement keeps everything that a group has seen reached from its key;
* `run_connected`: the groups and the waiting entries after a run.
-/

namespace TraceWeave.Grouping

/-- The two placements came under the same trace identifier, or one span is the parent of the
other. -/
def Related (x y : TraceId × Span) : Prop :=
  x.1 = y.1 ∨ x.2.parent = some y.2.id ∨ y.2.parent = some x.2.id

/-- The two placements are related and both among those of a list. -/
def Adjacent (l : List (TraceId × Span)) (x y : TraceId × Span) : Prop :=
  x ∈ l ∧ y ∈ l ∧ Related x y

/-- A chain of placements of a list, each related to the next, leads from one to the other. -/
def Connected (l : List (TraceId × Span)) : TraceId × Span → TraceId × Span → Prop :=
  Relation.ReflTransGen (Adjacent l)

/-- The placement is connected with one that came under the key. -/
def Reached (l : List (TraceId × Span)) (key : TraceId) (x : TraceId × Span) : Prop :=
  x ∈ l ∧ ∃ sent ∈ l, sent.1 = key ∧ Connected l sent x

variable {l l' : List (TraceId × Span)} {key src : TraceId} {x y : TraceId × Span}

/-! ## Chains -/

theorem Related.symm (h : Related x y) : Related y x := by
  rcases h with hwire | hparent | hchild
  · exact .inl hwire.symm
  · exact .inr (.inr hparent)
  · exact .inr (.inl hchild)

instance (l : List (TraceId × Span)) : Std.Symm (Adjacent l) where
  symm _ _ hadj := ⟨hadj.2.1, hadj.1, hadj.2.2.symm⟩

theorem Connected.symm (h : Connected l x y) : Connected l y x :=
  Std.Symm.symm (r := Relation.ReflTransGen (Adjacent l)) _ _ h

theorem Connected.trans {z : TraceId × Span} (hxy : Connected l x y) (hyz : Connected l y z) :
    Connected l x z :=
  Relation.ReflTransGen.trans hxy hyz

theorem Connected.of_related (hx : x ∈ l) (hy : y ∈ l) (h : Related x y) : Connected l x y :=
  .single ⟨hx, hy, h⟩

theorem Connected.mono (hl : l ⊆ l') (h : Connected l x y) : Connected l' x y :=
  Relation.ReflTransGen.mono (fun _ _ hadj => ⟨hl hadj.1, hl hadj.2.1, hadj.2.2⟩) _ _ h

namespace Reached

theorem of_sent (hx : x ∈ l) : Reached l x.1 x :=
  ⟨hx, x, hx, rfl, .refl⟩

theorem mono (hl : l ⊆ l') (h : Reached l key x) : Reached l' key x := by
  obtain ⟨hx, sent, hsent, hkey, hchain⟩ := h
  exact ⟨hl hx, sent, hl hsent, hkey, hchain.mono hl⟩

/-- All placements under one trace identifier are related, so it does not matter which of them a
chain starts from. -/
theorem connected (hx : Reached l key x) (hy : Reached l key y) : Connected l x y := by
  obtain ⟨-, sentx, hsentx, hkeyx, hchainx⟩ := hx
  obtain ⟨-, senty, hsenty, hkeyy, hchainy⟩ := hy
  have hsent : Connected l sentx senty :=
    .of_related hsentx hsenty (.inl (hkeyx.trans hkeyy.symm))
  exact (hchainx.symm.trans hsent).trans hchainy

theorem extend (hx : Reached l key x) (hy : y ∈ l) (h : Connected l x y) : Reached l key y := by
  obtain ⟨-, sent, hsent, hkey, hchain⟩ := hx
  exact ⟨hy, sent, hsent, hkey, hchain.trans h⟩

/-- What is reached from one key is reached from every key from which some of it is. -/
theorem rebase (hx : Reached l key x) (hsrc : Reached l src x) (hy : Reached l src y) :
    Reached l key y :=
  hx.extend hy.1 (hsrc.connected hy)

end Reached

namespace Engine

variable {e e' : Engine} {wire : TraceId} {s : Span} {r : Report}

/-- Every span that a group has seen, and every child for which it waits, is reached from its
key. -/
structure Justified (l : List (TraceId × Span)) (e : Engine) : Prop where
  seen_reached : ∀ {id key}, id ∈ (e.members key).seen → ∃ x, Reached l key x ∧ x.2.id = id
  awaited_reached : ∀ {p key}, e.awaited.find? p = some key →
    ∃ c, Reached l key c ∧ c.2.id ∈ (e.members key).seen ∧ c.2.parent = some p

/-! ## One placement -/

/-- What an engine knows it knows with more placements, too, and with fewer entries that wait. -/
theorem Justified.mono (hjust : Justified l e) (hl : l ⊆ l')
    (hseen : ∀ key, (e'.members key).seen = (e.members key).seen)
    (hawaited : ∀ {p key}, e'.awaited.find? p = some key → e.awaited.find? p = some key) :
    Justified l' e' where
  seen_reached := by
    intro id key hmem
    rw [hseen] at hmem
    obtain ⟨x, hx, hid⟩ := hjust.seen_reached hmem
    exact ⟨x, hx.mono hl, hid⟩
  awaited_reached := by
    intro p key hfind
    obtain ⟨c, hc, hmem, hparent⟩ := hjust.awaited_reached (hawaited hfind)
    exact ⟨c, hc.mono hl, by rwa [hseen], hparent⟩

namespace Admitted

/-- A span is reached from its group by any of the three routes: the group has seen its parent,
waits for it on behalf of a child, or has the key under which it came. -/
theorem reached_self (hstep : Admitted e wire s e' r) (h : e.Sound) (hjust : Justified l e) :
    Reached (l ++ [(wire, s)]) r.group (wire, s) := by
  have hself : (wire, s) ∈ l ++ [(wire, s)] := by simp
  have hmono {key : TraceId} {x : TraceId × Span} (hx : Reached l key x) :
      Reached (l ++ [(wire, s)]) key x := hx.mono (List.subset_append_left _ _)
  cases hhome : s.parent.bind e.homes.find? with
  | some group =>
    obtain ⟨p, hparent, hp⟩ := Option.bind_eq_some_iff.mp hhome
    obtain ⟨x, hx, rfl⟩ := hjust.seen_reached (h.home_seen hp)
    rw [hstep.group_eq, target_of_home hhome]
    exact (hmono hx).extend hself (.of_related (hmono hx).1 hself (.inr (.inr hparent)))
  | none =>
    cases hawaited : e.awaited.find? s.id with
    | some group =>
      obtain ⟨c, hc, -, hparent⟩ := hjust.awaited_reached hawaited
      have hgroup : r.group = group := by simp [hstep.group_eq, target, hhome, hawaited]
      rw [hgroup]
      exact (hmono hc).extend hself (.of_related (hmono hc).1 hself (.inr (.inl hparent)))
    | none =>
      have hgroup : r.group = wire := by simp [hstep.group_eq, target, hhome, hawaited]
      rw [hgroup]
      exact .of_sent hself

/-- The group that is merged waited for the span on behalf of one of its children. -/
theorem reached_merged (hstep : Admitted e wire s e' r) (h : e.Sound) (hjust : Justified l e)
    {src : TraceId} (hsrc : r.mergedFrom = some src) {x : TraceId × Span}
    (hx : Reached l src x) : Reached (l ++ [(wire, s)]) r.group x := by
  have hl : l ⊆ l ++ [(wire, s)] := List.subset_append_left _ _
  obtain ⟨c, hc, -, hparent⟩ := hjust.awaited_reached (hstep.merged_awaited hsrc)
  have hself := hstep.reached_self h hjust
  have hchild : Reached (l ++ [(wire, s)]) r.group c :=
    hself.extend (hc.mono hl).1 (.of_related hself.1 (hc.mono hl).1 (.inr (.inr hparent)))
  exact hchild.rebase (hc.mono hl) (hx.mono hl)

theorem justified (hstep : Admitted e wire s e' r) (h : e.Sound) (hjust : Justified l e) :
    Justified (l ++ [(wire, s)]) e' := by
  have hl : l ⊆ l ++ [(wire, s)] := List.subset_append_left _ _
  have hself := hstep.reached_self h hjust
  refine ⟨?_, ?_⟩
  · intro id key hmem
    rcases hstep.seen_cases hmem with ⟨rfl, rfl⟩ | hold | ⟨src, hsrc, rfl, htaken⟩
    · exact ⟨_, hself, rfl⟩
    · obtain ⟨x, hx, hid⟩ := hjust.seen_reached hold
      exact ⟨x, hx.mono hl, hid⟩
    · obtain ⟨x, hx, hid⟩ := hjust.seen_reached htaken
      exact ⟨x, hstep.reached_merged h hjust hsrc hx, hid⟩
  · intro p key hfind
    have hne : p ≠ s.id := by
      rintro rfl
      rw [hstep.awaited_self] at hfind
      cases hfind
    rw [hstep.awaited_other p hne] at hfind
    obtain ⟨owner, howner, rfl⟩ := Option.map_eq_some_iff.mp hfind
    rcases Option.or_eq_some_iff.mp howner with hold | ⟨-, hnew⟩
    · obtain ⟨hawaited, hkept⟩ := Option.filter_eq_some_iff.mp hold
      rw [decide_eq_true_eq] at hkept
      obtain ⟨c, hc, hmem, hparent⟩ := hjust.awaited_reached hawaited
      split
      · next hmerged =>
        exact ⟨c, hstep.reached_merged h hjust hmerged hc,
          hstep.seen_self.mpr (.inr (.inr ⟨owner, hmerged, hmem⟩)), hparent⟩
      · next hmerged =>
        refine ⟨c, hc.mono hl, ?_, hparent⟩
        by_cases hgroup : owner = r.group
        · subst hgroup
          exact hstep.seen_self.mpr (.inl hmem)
        · rwa [hstep.members_kept hgroup hkept.1 hmerged]
    · -- The entry is the one that the span has made for its own parent.
      split at hnew
      · next hparent =>
        obtain rfl := Option.some.inj hnew
        rw [ite_self]
        exact ⟨_, hself, hstep.seen_self.mpr (.inr (.inl rfl)), hparent⟩
      · cases hnew

end Admitted

/-- The placements of spans that have an identifier. -/
def identified (steps : List (TraceId × Span)) : List (TraceId × Span) :=
  steps.filter (!·.2.id.isUnassigned)

/-- A placement puts a span only where it is related to one that is there. -/
theorem Step.justified (hstep : Step e wire s e' r) (h : e.Sound) (hjust : Justified l e) :
    Justified (l ++ identified [(wire, s)]) e' := by
  have hl : l ⊆ l ++ identified [(wire, s)] := List.subset_append_left _ _
  cases hstep with
  | unplaced hstep =>
    rw [hstep.engine_eq]
    exact hjust.mono hl (fun _ => rfl) id
  | followed hstep => exact hjust.mono hl hstep.seen_eq fun hfind => hstep.awaited_eq ▸ hfind
  | repeated hstep =>
    refine hjust.mono hl (fun key => by rw [hstep.members_eq]) ?_
    intro p key hfind
    rw [hstep.awaited_eq] at hfind
    split at hfind
    · cases hfind
    · exact hfind
  | admitted hstep =>
    have hone : identified [(wire, s)] = [(wire, s)] := by simp [identified, hstep.assigned]
    rw [hone]
    exact hstep.justified h hjust

/-! ## Runs -/

theorem justified_run (groups spans : Nat) (steps : List (TraceId × Span)) :
    Justified (identified steps) ((new groups spans).run steps).1 := by
  refine run_history_induction (P := fun steps e _ => Justified (identified steps) e) ?_ ?_ steps
  · constructor
    · simp [new, members, Recency.find?]
    · simp [new]
  · intro steps e _ wire s e' r hsound hstep hjust
    have happend : identified (steps ++ [(wire, s)]) =
        identified steps ++ identified [(wire, s)] := List.filter_append _ _
    rw [happend]
    exact hstep.justified hsound hjust

/-- **No unrelated spans are put together.** Any two spans that a group has seen are connected by
placements of spans that have an identifier, and a group waits for a parent only if a span that it
has seen names that parent. -/
theorem run_connected (groups spans : Nat) (steps : List (TraceId × Span)) :
    let e := ((new groups spans).run steps).1
    (∀ key, ∀ a ∈ (e.members key).seen, ∀ b ∈ (e.members key).seen,
        ∃ x ∈ identified steps, ∃ y ∈ identified steps,
          x.2.id = a ∧ y.2.id = b ∧ Connected (identified steps) x y) ∧
      ∀ p key, e.awaitingParent p = some key →
        ∃ c ∈ identified steps, c.2.id ∈ (e.members key).seen ∧ c.2.parent = some p := by
  intro e
  have hjust : Justified (identified steps) e := justified_run groups spans steps
  refine ⟨?_, ?_⟩
  · intro key a ha b hb
    obtain ⟨x, hx, hxa⟩ := hjust.seen_reached ha
    obtain ⟨y, hy, hyb⟩ := hjust.seen_reached hb
    exact ⟨x, hx.1, y, hy.1, hxa, hyb, hx.connected hy⟩
  · intro p key hfind
    obtain ⟨c, hc, hmem, hparent⟩ := hjust.awaited_reached hfind
    exact ⟨c, hc.1, hmem, hparent⟩

/-- A root and a span that came under another identifier are in one group because of the span
between them, and the group that goes with the latter still waits for a parent. -/
theorem run_connected_merged :
    let steps : List (TraceId × Span) :=
      [(⟨"w3"⟩, bareSpan "c" (some "b")), (⟨"w3"⟩, bareSpan "d" (some "x")),
        (⟨"w1"⟩, bareSpan "a" none), (⟨"w2"⟩, bareSpan "b" (some "a"))]
    let e := ((new 10 10).run steps).1
    ⟨"a"⟩ ∈ (e.members ⟨"w1"⟩).seen ∧ ⟨"d"⟩ ∈ (e.members ⟨"w1"⟩).seen ∧
      (∃ x ∈ identified steps, ∃ y ∈ identified steps,
        x.2.id = ⟨"a"⟩ ∧ y.2.id = ⟨"d"⟩ ∧ Connected (identified steps) x y) ∧
      e.awaitingParent ⟨"x"⟩ = some ⟨"w1"⟩ ∧
      ∃ c ∈ identified steps, c.2.id ∈ (e.members ⟨"w1"⟩).seen ∧ c.2.parent = some ⟨"x"⟩ := by
  intro steps e
  have hroot : ⟨"a"⟩ ∈ (e.members ⟨"w1"⟩).seen := by decide
  have hother : ⟨"d"⟩ ∈ (e.members ⟨"w1"⟩).seen := by decide
  have hawaiting : e.awaitingParent ⟨"x"⟩ = some ⟨"w1"⟩ := by decide
  obtain ⟨hconnected, hdeclared⟩ := run_connected 10 10 steps
  exact ⟨hroot, hother, hconnected _ _ hroot _ hother, hawaiting, hdeclared _ _ hawaiting⟩

end Engine

end TraceWeave.Grouping
