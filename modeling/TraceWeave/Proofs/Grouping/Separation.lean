import TraceWeave.Proofs.Grouping.Effect
import Mathlib.Data.List.Dedup
import Mathlib.Data.List.Perm.Subperm

/-!
# Clients that do not interfere

Several clients send to one engine, and what they send arrives interleaved. If no two of them use
the same trace identifier and no two of them name the same span, and there is room for the groups
of all, then each client is served as if it were alone: its spans are answered with the same
reports, and its groups keep the same spans.

Every group belongs to the client that sends under its key (`Settled`), so a span finds nothing but
groups of its own client. The engine that serves all clients and the one that serves a single one
agree on all that belongs to that client (`Agrees`). Such spans of the client change both in the
same way, and the spans of the others change nothing of it.

* `Settled.step`: every group goes on belonging to one client;
* `Agrees.own`, `Agrees.other`: a span of the client, and a span of another one;
* `run_separate`: every interleaving.
-/

namespace TraceWeave.Grouping

variable {ι : Type}

/-- A span as it arrives: who sends it, and under which trace identifier. -/
structure Delivery (ι : Type) where
  client : ι
  wire : TraceId
  span : Span

namespace Delivery

def placement (d : Delivery ι) : TraceId × Span :=
  (d.wire, d.span)

/-- The identifiers that a span names: its own, and that of its parent. -/
def names (d : Delivery ι) : List SpanId :=
  d.span.id :: d.span.parent.toList

theorem id_mem_names (d : Delivery ι) : d.span.id ∈ d.names :=
  List.mem_cons_self

theorem parent_mem_names {d : Delivery ι} {p : SpanId} (h : d.span.parent = some p) :
    p ∈ d.names := by
  simp [names, h]

section

variable [DecidableEq ι]

/-- What a single client sends, in the order in which it arrives. -/
def sentBy (client : ι) (mixed : List (Delivery ι)) : List (TraceId × Span) :=
  (mixed.filter (·.client = client)).map placement

/-- The reports on what a single client sends. -/
def reportsTo (client : ι) (mixed : List (Delivery ι)) (reports : List Report) : List Report :=
  ((mixed.zip reports).filter (·.1.client = client)).map (·.2)

theorem sentBy_cons (client : ι) (d : Delivery ι) (mixed : List (Delivery ι)) :
    sentBy client (d :: mixed) =
      if d.client = client then d.placement :: sentBy client mixed else sentBy client mixed := by
  by_cases h : d.client = client <;> simp [sentBy, h]

theorem reportsTo_cons (client : ι) (d : Delivery ι) (mixed : List (Delivery ι)) (r : Report)
    (reports : List Report) :
    reportsTo client (d :: mixed) (r :: reports) =
      if d.client = client then r :: reportsTo client mixed reports
      else reportsTo client mixed reports := by
  by_cases h : d.client = client <;> simp [reportsTo, h]

end

end Delivery

/-- No two clients send under one trace identifier, and no two of them name one span. -/
structure Separate (mixed : List (Delivery ι)) : Prop where
  wires_apart : ∀ x ∈ mixed, ∀ y ∈ mixed, x.wire = y.wire → x.client = y.client
  names_apart : ∀ x ∈ mixed, ∀ y ∈ mixed, ∀ id ∈ x.names, id ∈ y.names →
    id.isUnassigned = false → x.client = y.client

/-- The client sends under the trace identifier. -/
def Owns (mixed : List (Delivery ι)) (client : ι) (key : TraceId) : Prop :=
  ∃ d ∈ mixed, d.client = client ∧ d.wire = key

/-- The client names the span. -/
def Knows (mixed : List (Delivery ι)) (client : ι) (id : SpanId) : Prop :=
  ∃ d ∈ mixed, d.client = client ∧ id ∈ d.names

section

variable {mixed : List (Delivery ι)} {d : Delivery ι} {c c' : ι} {key : TraceId} {id : SpanId}

theorem Owns.of_mem (hd : d ∈ mixed) : Owns mixed d.client d.wire :=
  ⟨d, hd, rfl, rfl⟩

theorem Knows.of_names (hd : d ∈ mixed) (hid : id ∈ d.names) : Knows mixed d.client id :=
  ⟨d, hd, rfl, hid⟩

theorem Separate.owner_unique (h : Separate mixed) (howns : Owns mixed c key)
    (howns' : Owns mixed c' key) : c = c' := by
  obtain ⟨x, hx, rfl, hkey⟩ := howns
  obtain ⟨y, hy, rfl, hkey'⟩ := howns'
  exact h.wires_apart x hx y hy (hkey.trans hkey'.symm)

theorem Separate.knower_unique (h : Separate mixed) (hassigned : id.isUnassigned = false)
    (hknows : Knows mixed c id) (hknows' : Knows mixed c' id) : c = c' := by
  obtain ⟨x, hx, rfl, hid⟩ := hknows
  obtain ⟨y, hy, rfl, hid'⟩ := hknows'
  exact h.names_apart x hx y hy id hid hid' hassigned

end

namespace Engine

variable {mixed : List (Delivery ι)} {client c : ι} {d : Delivery ι}
  {e e' f f' : Engine} {r t : Report} {id : SpanId} {key : TraceId}

/-! ## Every group belongs to a client -/

/-- Every group belongs to a client that knows all that the group has seen, and a group waits for
spans only that its client knows; and there is room for the groups of all clients. -/
structure Settled (mixed : List (Delivery ι)) (e : Engine) : Prop where
  sound : e.Sound
  room : (mixed.map (·.wire)).dedup.length ≤ e.limits.groups
  keys_owned : ∀ key ∈ e.groups.keys, ∃ c, Owns mixed c key
  seen_known : ∀ {c key id}, Owns mixed c key → id ∈ (e.members key).seen → Knows mixed c id
  awaited_owned : ∀ {id key}, id.isUnassigned = false → e.awaited.find? id = some key →
    ∃ c, Knows mixed c id ∧ Owns mixed c key

namespace Settled

variable (hseparate : Separate mixed) (hsettled : Settled mixed e)
include hseparate hsettled

theorem home_owned (hknows : Knows mixed client id) (hhome : e.homes.find? id = some key) :
    Owns mixed client key := by
  obtain ⟨c, howns⟩ := hsettled.keys_owned key (hsettled.sound.home_live hhome)
  have hknows' := hsettled.seen_known howns (hsettled.sound.home_seen hhome)
  rwa [hseparate.knower_unique (hsettled.sound.home_assigned hhome) hknows hknows']

theorem waiting_owned (hassigned : id.isUnassigned = false) (hknows : Knows mixed client id)
    (hawaited : e.awaited.find? id = some key) : Owns mixed client key := by
  obtain ⟨c, hknows', howns⟩ := hsettled.awaited_owned hassigned hawaited
  rwa [hseparate.knower_unique hassigned hknows hknows']

theorem parent_owned (hd : d ∈ mixed) (hhome : d.span.parent.bind e.homes.find? = some key) :
    Owns mixed d.client key := by
  obtain ⟨p, hparent, hp⟩ := Option.bind_eq_some_iff.mp hhome
  exact hsettled.home_owned hseparate (.of_names hd (Delivery.parent_mem_names hparent)) hp

/-- A span goes to a group of its own client. -/
theorem group_owned (hd : d ∈ mixed) (hstep : Step e d.wire d.span e' r) :
    Owns mixed d.client r.group := by
  rw [hstep.group_eq, destination, target]
  cases hhome : d.span.parent.bind e.homes.find? with
  | some home =>
    have howned := hsettled.parent_owned hseparate hd hhome
    split <;> exact howned
  | none =>
    cases hassigned : d.span.id.isUnassigned with
    | true => exact .of_mem hd
    | false =>
      cases hawaited : e.awaited.find? d.span.id with
      | none => exact .of_mem hd
      | some waiting =>
        exact hsettled.waiting_owned hseparate hassigned (.of_names hd d.id_mem_names) hawaited

theorem merged_owned (hd : d ∈ mixed) (hstep : Step e d.wire d.span e' r) {src : TraceId}
    (hsrc : r.mergedFrom = some src) : Owns mixed d.client src := by
  obtain ⟨hrecords, hawaited⟩ := hstep.merged_awaited hsrc
  exact hsettled.waiting_owned hseparate hrecords.1 (.of_names hd d.id_mem_names) hawaited

/-- There is always room, since no group has a key that no client uses. -/
theorem evicted_none (hd : d ∈ mixed) (hstep : Step e d.wire d.span e' r) : r.evicted = none := by
  have hwire : ∀ {k}, (∃ c, Owns mixed c k) → k ∈ (mixed.map (·.wire)).dedup := by
    rintro k ⟨c, x, hx, -, rfl⟩
    exact List.mem_dedup.mpr (List.mem_map_of_mem hx)
  rw [hstep.evicted_eq hsettled.sound, if_neg]
  rintro ⟨-, hnew, hfull⟩
  have hnodup : (r.group :: e.groups.keys).Nodup :=
    List.nodup_cons.mpr ⟨hnew, hsettled.sound.keys_nodup⟩
  have hsubset : r.group :: e.groups.keys ⊆ (mixed.map (·.wire)).dedup := by
    intro k hk
    rcases List.mem_cons.mp hk with rfl | hk
    · exact hwire ⟨_, hsettled.group_owned hseparate hd hstep⟩
    · exact hwire (hsettled.keys_owned k hk)
  have hlength := (hnodup.subperm hsubset).length_le
  have hroom := hsettled.room
  rw [List.length_cons] at hlength
  omega

theorem step (hd : d ∈ mixed) (hstep : Step e d.wire d.span e' r) : Settled mixed e' where
  sound := hstep.sound hsettled.sound
  room := by
    rw [hstep.limits_eq]
    exact hsettled.room
  keys_owned := by
    intro key hkey
    rcases hstep.mem_keys_iff.mp hkey with ⟨-, rfl⟩ | ⟨hold, -, -⟩
    · exact ⟨_, hsettled.group_owned hseparate hd hstep⟩
    · exact hsettled.keys_owned key hold
  seen_known := by
    intro c key id howns hseen
    rcases hstep.mem_seen_iff.mp hseen with ⟨-, rfl, hnew⟩ | ⟨hold, -, -⟩
    · obtain rfl := hseparate.owner_unique howns (hsettled.group_owned hseparate hd hstep)
      rcases hnew with rfl | ⟨src, hsrc, htaken⟩
      · exact .of_names hd d.id_mem_names
      · exact hsettled.seen_known (hsettled.merged_owned hseparate hd hstep hsrc) htaken
    · exact hsettled.seen_known howns hold
  awaited_owned := by
    intro id key hassigned hfind
    rw [hstep.awaited_eq] at hfind
    split at hfind
    · cases hfind
    · obtain ⟨owner, howner, hkey⟩ := Option.map_eq_some_iff.mp hfind
      have hbefore : ∃ c, Knows mixed c id ∧ Owns mixed c owner := by
        rcases Option.or_eq_some_iff.mp howner with hold | ⟨-, hnew⟩
        · exact hsettled.awaited_owned hassigned (Option.filter_eq_some_iff.mp hold).1
        · split at hnew
          · next hparent =>
            obtain rfl := Option.some.inj hnew
            exact ⟨_, .of_names hd (Delivery.parent_mem_names hparent.2),
              hsettled.group_owned hseparate hd hstep⟩
          · cases hnew
      obtain ⟨c, hknows, howns⟩ := hbefore
      split at hkey
      · next hmerged =>
        subst hkey
        have hmoved := hsettled.merged_owned hseparate hd hstep hmerged
        obtain rfl := hseparate.owner_unique howns hmoved
        exact ⟨_, hknows, hsettled.group_owned hseparate hd hstep⟩
      · exact ⟨c, hknows, hkey ▸ howns⟩

end Settled

/-! ## All that belongs to one client -/

/-- The engines agree on the groups of a client and on the spans that it knows. -/
structure Agrees (mixed : List (Delivery ι)) (client : ι) (e f : Engine) : Prop where
  limits_eq : e.limits = f.limits
  live_iff : ∀ {key}, Owns mixed client key → (key ∈ e.groups.keys ↔ key ∈ f.groups.keys)
  spans_eq : ∀ {key}, Owns mixed client key → (e.members key).spans = (f.members key).spans
  seen_iff : ∀ {key}, Owns mixed client key →
    ∀ id, id ∈ (e.members key).seen ↔ id ∈ (f.members key).seen
  homes_eq : ∀ {id}, id.isUnassigned = false → Knows mixed client id →
    e.homes.find? id = f.homes.find? id
  awaited_eq : ∀ {id}, id.isUnassigned = false → Knows mixed client id →
    e.awaited.find? id = f.awaited.find? id

/-- A span of another client changes nothing that belongs to the client. -/
theorem Agrees.other (hagrees : Agrees mixed client e f) (hseparate : Separate mixed)
    (hsettled : Settled mixed e) (hd : d ∈ mixed) (hstep : Step e d.wire d.span e' r)
    (hother : d.client ≠ client) : Agrees mixed client e' f := by
  have hevicted := hsettled.evicted_none hseparate hd hstep
  have hgroup {key} (howns : Owns mixed client key) : key ≠ r.group := by
    rintro rfl
    exact hother (hseparate.owner_unique (hsettled.group_owned hseparate hd hstep) howns)
  have hmerged {key} (howns : Owns mixed client key) : r.mergedFrom ≠ some key := fun hsrc =>
    hother (hseparate.owner_unique (hsettled.merged_owned hseparate hd hstep hsrc) howns)
  have hnames {id} (hassigned : id.isUnassigned = false) (hknows : Knows mixed client id) :
      id ∉ d.names := fun hid =>
    hother (hseparate.knower_unique hassigned (.of_names hd hid) hknows)
  have htaken {id} (hassigned : id.isUnassigned = false) (hknows : Knows mixed client id) :
      ¬∃ src ∈ r.mergedFrom, id ∈ (e.members src).seen := by
    rintro ⟨src, hsrc, hseen⟩
    have hmoved := hsettled.seen_known (hsettled.merged_owned hseparate hd hstep hsrc) hseen
    exact hother (hseparate.knower_unique hassigned hmoved hknows)
  refine ⟨hstep.limits_eq.trans hagrees.limits_eq, ?_, ?_, ?_, ?_, ?_⟩
  · intro key howns
    rw [hstep.mem_keys_iff, ← hagrees.live_iff howns]
    simp [hgroup howns, hmerged howns, hevicted]
  · intro key howns
    rw [hstep.spans_eq, if_neg (hgroup howns), ← hagrees.spans_eq howns]
    simp [hmerged howns, hevicted]
  · intro key howns id
    rw [hstep.mem_seen_iff, ← hagrees.seen_iff howns]
    simp [hgroup howns, hmerged howns, hevicted]
  · intro id hassigned hknows
    have hne : id ≠ d.span.id := fun heq =>
      hnames hassigned hknows (heq ▸ d.id_mem_names)
    rw [hstep.homes_eq, ← hagrees.homes_eq hassigned hknows, if_neg, hevicted]
    · exact filter_of_all (by simp)
    · rintro ⟨-, hid | hmoved⟩
      · exact hne hid
      · exact htaken hassigned hknows hmoved
  · intro id hassigned hknows
    have hne : id ≠ d.span.id := fun heq =>
      hnames hassigned hknows (heq ▸ d.id_mem_names)
    have hparent : d.span.parent ≠ some id := fun heq =>
      hnames hassigned hknows (Delivery.parent_mem_names heq)
    rw [hstep.awaited_eq, ← hagrees.awaited_eq hassigned hknows, if_neg fun hand => hne hand.1,
      hevicted, filter_of_all (by simp)]
    cases hawaited : e.awaited.find? id with
    | none => simp [hparent]
    | some owner =>
      have howns := hsettled.waiting_owned hseparate hassigned hknows hawaited
      simp [hmerged howns]

theorem Sound.homes_unassigned (h : e.Sound) (hid : id.isUnassigned = true) :
    e.homes.find? id = none := by
  cases hhome : e.homes.find? id with
  | none => rfl
  | some home =>
    have hassigned := h.home_assigned hhome
    rw [hid] at hassigned
    cases hassigned

section Own

variable (hagrees : Agrees mixed client e f) (hd : d ∈ mixed) (hown : d.client = client)
include hagrees hd hown

theorem Agrees.parent_eq (he : e.Sound) (hf : f.Sound) :
    d.span.parent.bind e.homes.find? = d.span.parent.bind f.homes.find? := by
  subst hown
  cases hparent : d.span.parent with
  | none => rfl
  | some p =>
    rw [Option.bind_some, Option.bind_some]
    cases hid : p.isUnassigned with
    | false => exact hagrees.homes_eq hid (.of_names hd (Delivery.parent_mem_names hparent))
    | true => rw [he.homes_unassigned hid, hf.homes_unassigned hid]

theorem Agrees.waiting_eq (hassigned : d.span.id.isUnassigned = false) :
    e.awaited.find? d.span.id = f.awaited.find? d.span.id :=
  hagrees.awaited_eq hassigned (hown ▸ .of_names hd d.id_mem_names)

variable (hseparate : Separate mixed) (hsettled : Settled mixed e) (hsettled' : Settled mixed f)
  (hstep : Step e d.wire d.span e' r) (hstep' : Step f d.wire d.span f' t)
include hseparate hsettled hsettled' hstep hstep'

/-- A span of the client is answered alike. -/
theorem Agrees.report_eq : r = t := by
  have hparent := hagrees.parent_eq hd hown hsettled.sound hsettled'.sound
  have hgroup : r.group = t.group := by
    rw [hstep.group_eq, hstep'.group_eq, destination, destination, target, target, hparent]
    cases hassigned : d.span.id.isUnassigned with
    | true => rfl
    | false => rw [hagrees.waiting_eq hd hown hassigned]
  have howns : Owns mixed client r.group := hown ▸ hsettled.group_owned hseparate hd hstep
  have houtcome : r.outcome = t.outcome := by
    rw [hstep.outcome_eq hsettled.sound, hstep'.outcome_eq hsettled'.sound, ← hgroup, hparent]
    simp only [keepSpan, hagrees.seen_iff howns, hagrees.spans_eq howns, hagrees.limits_eq]
    split_ifs <;> rfl
  have hmerged : r.mergedFrom = t.mergedFrom := by
    rw [hstep.mergedFrom_eq, hstep'.mergedFrom_eq]
    by_cases hrecords : t.Records d.span
    · have hrecords' : r.Records d.span := ⟨hrecords.1, houtcome ▸ hrecords.2⟩
      rw [if_pos hrecords, if_pos hrecords', hparent, hgroup,
        hagrees.waiting_eq hd hown hrecords.1]
    · have hrecords' : ¬r.Records d.span := fun h => hrecords ⟨h.1, houtcome ▸ h.2⟩
      rw [if_neg hrecords, if_neg hrecords']
  have hevicted : r.evicted = t.evicted := by
    rw [hsettled.evicted_none hseparate hd hstep, hsettled'.evicted_none hseparate hd hstep']
  cases r
  cases t
  simp only [Report.mk.injEq]
  exact ⟨hgroup, houtcome, hmerged, hevicted⟩

/-- A span of the client changes both engines alike. -/
theorem Agrees.own : Agrees mixed client e' f' := by
  obtain rfl : r = t :=
    hagrees.report_eq hd hown hseparate hsettled hsettled' hstep hstep'
  have hparent := hagrees.parent_eq hd hown hsettled.sound hsettled'.sound
  have hevicted := hsettled.evicted_none hseparate hd hstep
  have hmerged : ∀ src ∈ r.mergedFrom, Owns mixed client src := fun src hsrc =>
    hown ▸ hsettled.merged_owned hseparate hd hstep hsrc
  have htaken (id : SpanId) : (∃ src ∈ r.mergedFrom, id ∈ (e.members src).seen) ↔
      ∃ src ∈ r.mergedFrom, id ∈ (f.members src).seen :=
    exists_congr fun src => and_congr_right fun hsrc => hagrees.seen_iff (hmerged src hsrc) id
  refine ⟨?_, ?_, ?_, ?_, ?_, ?_⟩
  · rw [hstep.limits_eq, hstep'.limits_eq, hagrees.limits_eq]
  · intro key howns
    rw [hstep.mem_keys_iff, hstep'.mem_keys_iff, hagrees.live_iff howns]
  · intro key howns
    rw [hstep.spans_eq, hstep'.spans_eq, hagrees.spans_eq howns]
    congr 2
    cases hsrc : r.mergedFrom with
    | none => rfl
    | some src =>
      simp only [Option.elim_some, hagrees.spans_eq (hmerged src hsrc), hagrees.seen_iff howns]
  · intro key howns id
    rw [hstep.mem_seen_iff, hstep'.mem_seen_iff, hagrees.seen_iff howns, htaken]
  · intro id hassigned hknows
    rw [hstep.homes_eq, hstep'.homes_eq, hagrees.homes_eq hassigned hknows]
    simp only [htaken]
  · intro id hassigned hknows
    rw [hstep.awaited_eq, hstep'.awaited_eq, hagrees.awaited_eq hassigned hknows, hparent,
      hevicted]
    simp

end Own

/-! ## Runs -/

open Delivery

theorem settled_new {groups : Nat} (hroom : (mixed.map (·.wire)).dedup.length ≤ groups)
    (spans : Nat) : Settled mixed (new groups spans) where
  sound := sound_new groups spans
  room := Nat.le_trans hroom (Nat.le_max_left groups 1)
  keys_owned := by simp [new, Recency.keys]
  seen_known := by simp [new, members, Recency.find?]
  awaited_owned := by simp [new]

variable [DecidableEq ι]

theorem agrees_run (hseparate : Separate mixed) {rest : List (Delivery ι)}
    (hrest : ∀ d ∈ rest, d ∈ mixed) (hsettled : Settled mixed e) (hsettled' : Settled mixed f)
    (hagrees : Agrees mixed client e f) :
    reportsTo client rest (e.run (rest.map placement)).2 = (f.run (sentBy client rest)).2 ∧
      Agrees mixed client (e.run (rest.map placement)).1 (f.run (sentBy client rest)).1 := by
  induction rest generalizing e f with
  | nil => exact ⟨rfl, hagrees⟩
  | cons d rest ih =>
    have hd := hrest d List.mem_cons_self
    have hlater : ∀ d ∈ rest, d ∈ mixed := fun x hx => hrest x (List.mem_cons_of_mem _ hx)
    have hstep := step_place hsettled.sound d.wire d.span
    have hafter := hsettled.step hseparate hd hstep
    rw [List.map_cons, placement, run, reportsTo_cons, sentBy_cons]
    by_cases hown : d.client = client
    · have hstep' := step_place hsettled'.sound d.wire d.span
      have hreport := hagrees.report_eq hd hown hseparate hsettled hsettled' hstep hstep'
      have hboth := hagrees.own hd hown hseparate hsettled hsettled' hstep hstep'
      obtain ⟨hreports, hlast⟩ := ih hlater hafter (hsettled'.step hseparate hd hstep') hboth
      rw [if_pos hown, if_pos hown, placement, run]
      exact ⟨by rw [hreport, hreports], hlast⟩
    · rw [if_neg hown, if_neg hown]
      exact ih hlater hafter hsettled' (hagrees.other hseparate hsettled hd hstep hown)

/-- **Clients do not interfere.** If no two clients use one trace identifier or name one span, and
there is room for as many groups as trace identifiers are used, then however their spans are
interleaved, each client gets the reports that it would get alone, and its groups are there and
keep the spans that they would keep. -/
theorem run_separate (groups spans : Nat) (mixed : List (Delivery ι)) (hseparate : Separate mixed)
    (hroom : (mixed.map (·.wire)).dedup.length ≤ groups) (client : ι) :
    let together := (new groups spans).run (mixed.map placement)
    let alone := (new groups spans).run (sentBy client mixed)
    reportsTo client mixed together.2 = alone.2 ∧
      ∀ d ∈ mixed, d.client = client →
        together.1.containsGroup d.wire = alone.1.containsGroup d.wire ∧
          (together.1.members d.wire).spans = (alone.1.members d.wire).spans := by
  intro together alone
  have hsettled := settled_new hroom spans
  have hagrees : Agrees mixed client (new groups spans) (new groups spans) :=
    ⟨rfl, fun _ => Iff.rfl, fun _ => rfl, fun _ _ => Iff.rfl, fun _ _ => rfl, fun _ _ => rfl⟩
  obtain ⟨hreports, hlast⟩ := agrees_run hseparate (fun _ hd => hd) hsettled hsettled hagrees
  refine ⟨hreports, fun d hd hown => ?_⟩
  have howns : Owns mixed client d.wire := hown ▸ .of_mem hd
  refine ⟨?_, hlast.spans_eq howns⟩
  rw [Bool.eq_iff_iff, containsGroup_iff, containsGroup_iff]
  exact hlast.live_iff howns

/-- One client sends two groups that are merged, and the other one a span twice and a child that
has no identifier. -/
theorem run_separate_two :
    let mixed : List (Delivery Bool) :=
      [⟨true, ⟨"w1"⟩, bareSpan "c" (some "b")⟩, ⟨false, ⟨"v1"⟩, bareSpan "x" none⟩,
        ⟨true, ⟨"w2"⟩, bareSpan "a" none⟩, ⟨false, ⟨"v2"⟩, bareSpan "" (some "x")⟩,
        ⟨true, ⟨"w3"⟩, bareSpan "b" (some "a")⟩, ⟨false, ⟨"v1"⟩, bareSpan "x" none⟩,
        ⟨true, ⟨"w3"⟩, bareSpan "" (some "b")⟩]
    let together := (new 5 10).run (mixed.map placement)
    let alone := (new 5 10).run (sentBy true mixed)
    Separate mixed ∧ (mixed.map (·.wire)).dedup.length ≤ 5 ∧
      reportsTo true mixed together.2 = alone.2 ∧
      alone.2.map (·.mergedFrom) = [none, none, some ⟨"w1"⟩, none] ∧
      together.1.containsGroup ⟨"w1"⟩ = alone.1.containsGroup ⟨"w1"⟩ ∧
      (together.1.members ⟨"w2"⟩).spans = (alone.1.members ⟨"w2"⟩).spans ∧
      (alone.1.members ⟨"w2"⟩).spans.length = 4 := by
  intro mixed together alone
  have hseparate : Separate mixed := ⟨by decide, by decide⟩
  have hroom : (mixed.map (·.wire)).dedup.length ≤ 5 := by decide
  obtain ⟨hreports, hgroups⟩ := run_separate 5 10 mixed hseparate hroom true
  have hw1 := hgroups ⟨true, ⟨"w1"⟩, bareSpan "c" (some "b")⟩ (by simp [mixed]) rfl
  have hw2 := hgroups ⟨true, ⟨"w2"⟩, bareSpan "a" none⟩ (by simp [mixed]) rfl
  exact ⟨hseparate, hroom, hreports, by decide, hw1.1, hw2.2, by decide⟩

end Engine

end TraceWeave.Grouping
