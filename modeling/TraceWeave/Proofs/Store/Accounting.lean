import TraceWeave.Proofs.Grouping.Counting
import TraceWeave.Store

/-!
# The accounts of a store

A store counts the spans that come in, and its engine counts what becomes of them and of the groups.
The two accounts agree at any time: every span that came in was kept, left out of a full group, a
repetition or not placed, and every group that was made is there, had to go or was merged. What a
batch adds to the counters is what the batch is answered with.

* `Step.length_keys`, `Step.grouped`: the groups after a placement;
* `Grown.after`, `grown_run`: the counters after a placement and after a run, given the tally;
* `accounts_balance`: the statistics of a store after any calls, and the answer to the next batch.
-/

namespace TraceWeave

open Grouping

/-! ## Counters and tallies -/

namespace Tally

/-- The spans of the batch, whatever became of them. -/
def total (t : Tally) : Nat :=
  t.retained + t.truncated + t.duplicates + t.unplaced

/-- The counters have grown by what the tally says. -/
structure Grown (before after : Counters) (t : Tally) : Prop where
  retained_eq : after.retained = before.retained + t.retained
  truncated_eq : after.truncated = before.truncated + t.truncated
  duplicates_eq : after.duplicates = before.duplicates + t.duplicates
  unplaced_eq : after.unplaced = before.unplaced + t.unplaced
  merged_eq : after.merged = before.merged + t.merges
  evicted_eq : after.evicted = before.evicted + t.evictions

theorem grown_empty (c : Counters) : Grown c c {} :=
  ⟨rfl, rfl, rfl, rfl, rfl, rfl⟩

theorem retained_count (c : Counters) (o : Outcome) :
    (c.count o).retained = c.retained + if o = .retained then 1 else 0 := by
  cases o <;> rfl

theorem truncated_count (c : Counters) (o : Outcome) :
    (c.count o).truncated = c.truncated + if o = .truncated then 1 else 0 := by
  cases o <;> rfl

/-- A report is counted by the engine as it is added to the tally. -/
theorem Grown.after {c d : Counters} {t : Tally} (h : Grown c d t) (keys : List TraceId)
    (r : Report) : Grown c (d.after keys r) (t.add r) where
  retained_eq := by
    simp only [Counters.after, add, retained_count, h.retained_eq, Nat.add_assoc]
  truncated_eq := by
    simp only [Counters.after, add, truncated_count, h.truncated_eq, Nat.add_assoc]
  duplicates_eq := by
    simp only [Counters.after, add, Counters.duplicates_count, h.duplicates_eq, Nat.add_assoc]
  unplaced_eq := by
    simp only [Counters.after, add, Counters.unplaced_count, h.unplaced_eq, Nat.add_assoc]
  merged_eq := by simp only [Counters.after, add, h.merged_eq, Nat.add_assoc]
  evicted_eq := by simp only [Counters.after, add, h.evicted_eq, Nat.add_assoc]

/-- Something becomes of every span, and one thing only. -/
theorem total_add (t : Tally) (r : Report) : (t.add r).total = t.total + 1 := by
  cases houtcome : r.outcome <;> simp [total, add, houtcome] <;> omega

end Tally

namespace Grouping.Engine

variable {e e' : Engine} {wire : TraceId} {s : Span} {r : Report}

theorem grown_run (e : Engine) (steps : List (TraceId × Span)) {c : Counters} {t : Tally}
    (h : t.Grown c e.counters) :
    ((e.run steps).2.foldl Tally.add t).Grown c (e.run steps).1.counters := by
  induction steps generalizing e t with
  | nil => exact h
  | cons step rest ih =>
    obtain ⟨wire, s⟩ := step
    -- The engine counts by the same keys that stood there before the placement.
    have hplaced := h.after e.groups.keys (e.place wire s).2
    rw [← counters_place] at hplaced
    exact ih _ hplaced

theorem total_run (e : Engine) (steps : List (TraceId × Span)) (t : Tally) :
    ((e.run steps).2.foldl Tally.add t).total = t.total + steps.length := by
  induction steps generalizing e t with
  | nil => rfl
  | cons step rest ih =>
    obtain ⟨wire, s⟩ := step
    calc (((e.place wire s).1.run rest).2.foldl Tally.add (t.add (e.place wire s).2)).total
        = (t.add (e.place wire s).2).total + rest.length := ih _ _
      _ = t.total + (rest.length + 1) := by rw [Tally.total_add]; omega

/-! ## Groups that come and go -/

theorem length_filter_ne {l : List TraceId} (hnodup : l.Nodup) (key : TraceId) :
    (l.filter (· ≠ key)).length + (if key ∈ l then 1 else 0) = l.length := by
  have herase : l.filter (· ≠ key) = l.erase key := by
    rw [hnodup.erase_eq_filter]
    refine List.filter_congr fun k _ => ?_
    rw [Bool.eq_iff_iff]
    simp
  rw [herase, List.length_erase]
  split
  · next hmem =>
    have hpos := List.length_pos_of_mem hmem
    omega
  · rfl

theorem length_filter_gone {l : List TraceId} (hnodup : l.Nodup) (gone : Option TraceId)
    (hgone : ∀ key ∈ gone, key ∈ l) :
    (l.filter (gone ≠ some ·)).length + (if gone.isSome then 1 else 0) = l.length := by
  cases gone with
  | none => simp
  | some key =>
    have hlength := length_filter_ne hnodup key
    rw [if_pos (hgone key rfl)] at hlength
    simpa [eq_comm] using hlength

/-- The groups that stay behind the one of the span. -/
theorem length_filter_touched {l : List TraceId} (hnodup : l.Nodup) (key : TraceId)
    {gone src : Option TraceId} (hgone : ∀ k ∈ gone, k ∈ l) (hsrc : ∀ k ∈ src, k ∈ l)
    (happart : ∀ k ∈ src, gone ≠ some k) (hgone_ne : gone ≠ some key) (hsrc_ne : src ≠ some key) :
    (l.filter fun k => k ≠ key ∧ gone ≠ some k ∧ src ≠ some k).length +
        (if gone.isSome then 1 else 0) + (if src.isSome then 1 else 0) +
        (if key ∈ l then 1 else 0) = l.length := by
  have hsplit : (l.filter fun k => k ≠ key ∧ gone ≠ some k ∧ src ≠ some k) =
      ((l.filter (gone ≠ some ·)).filter (src ≠ some ·)).filter (· ≠ key) := by
    rw [List.filter_filter, List.filter_filter]
    refine List.filter_congr fun k _ => ?_
    rw [Bool.eq_iff_iff]
    simp only [Bool.and_eq_true, decide_eq_true_eq]
    tauto
  have hfirst := length_filter_gone hnodup gone hgone
  have hsecond := length_filter_gone (hnodup.filter (gone ≠ some ·)) src fun k hk =>
    List.mem_filter.mpr ⟨hsrc k hk, by simpa using happart k hk⟩
  have hthird := length_filter_ne ((hnodup.filter (gone ≠ some ·)).filter (src ≠ some ·)) key
  have hkey : key ∈ (l.filter (gone ≠ some ·)).filter (src ≠ some ·) ↔ key ∈ l := by
    simp [hgone_ne, hsrc_ne]
  rw [if_congr hkey rfl rfl] at hthird
  rw [hsplit]
  omega

/-- **How many groups there are** after a placement: one more if the group of the span is new, and
one less for each group that the report names as gone. -/
theorem Step.length_keys (hstep : Step e wire s e' r) (h : e.Sound) :
    e'.groups.keys.length + (if r.evicted.isSome then 1 else 0) +
        (if r.mergedFrom.isSome then 1 else 0) =
      e.groups.keys.length + if r.outcome ≠ .unplaced ∧ r.group ∉ e.groups.keys then 1 else 0 := by
  rw [hstep.keys_touched, Report.touch]
  split
  · next hunplaced => simp [hunplaced, hstep.still_of_unplaced hunplaced]
  · next hplaced =>
    have hlength := length_filter_touched h.keys_nodup r.group
      (fun k hk => hstep.evicted_live h hk) (fun k hk => hstep.merged_live h hk)
      (fun k hk => by
        have hadmitted := hstep.admitted_of_records (hstep.records_of_merged hk)
        rw [hadmitted.evicted_of_merged h hk]
        simp)
      hstep.evicted_ne_group hstep.merged_ne_group
    have hnew : (if r.outcome ≠ .unplaced ∧ r.group ∉ e.groups.keys then 1 else 0) +
        (if r.group ∈ e.groups.keys then 1 else 0) = 1 := by
      by_cases hlive : r.group ∈ e.groups.keys <;> simp [hlive, hplaced]
    rw [List.length_cons]
    omega

/-- Every group that was made is there, had to go or was merged. -/
def Grouped (e : Engine) : Prop :=
  e.counters.created = e.groups.length + e.counters.evicted + e.counters.merged

theorem Step.grouped (hstep : Step e wire s e' r) (h : e.Sound)
    (hcounters : e'.counters = e.counters.after e.groups.keys r) (hgrouped : e.Grouped) :
    e'.Grouped := by
  have hlength := hstep.length_keys h
  rw [Recency.length_keys, Recency.length_keys] at hlength
  simp only [Grouped] at hgrouped ⊢
  simp only [hcounters, Counters.after, hgrouped]
  omega

theorem grouped_run (h : e.Sound) (hgrouped : e.Grouped) (steps : List (TraceId × Span)) :
    (e.run steps).1.Sound ∧ (e.run steps).1.Grouped ∧ (e.run steps).1.limits = e.limits :=
  run_induction (P := fun f => f.Sound ∧ f.Grouped ∧ f.limits = e.limits) (Q := fun _ => True)
    (fun f wire s ⟨hsound, hgrouped, hlimits⟩ _ => by
      have hstep := step_place hsound wire s
      exact ⟨hstep.sound hsound, hstep.grouped hsound (counters_place f wire s) hgrouped,
        hstep.limits_eq.trans hlimits⟩)
    ⟨h, hgrouped, rfl⟩ steps fun _ _ => trivial

end Grouping.Engine

/-! ## Calls -/

/-- What a store can be asked to do. -/
inductive Store.Call
  | ingest (wire : TraceId) (spans : List Span)
  | ingestSpans (spans : List Span)
  | snapshot
deriving DecidableEq, Repr

/-- Spans and groups are all accounted for. -/
structure Stats.Balanced (stats : Stats) : Prop where
  spans_eq : stats.spansReceived = stats.counters.retained + stats.counters.truncated +
    stats.counters.duplicates + stats.counters.unplaced
  groups_eq : stats.counters.created = stats.groups + stats.counters.evicted + stats.counters.merged
  groups_le : stats.groups ≤ stats.limits.groups

namespace Store

/-- The store after a call. -/
def after (store : Store) : Call → Store
  | .ingest wire spans => (store.ingest wire spans).1
  | .ingestSpans spans => (store.ingestSpans spans).1
  | .snapshot => store.snapshot.1

/-- The store after calls, one after another. -/
def afterAll (store : Store) (calls : List Call) : Store :=
  calls.foldl after store

/-- A batch of spans is answered with what it has added to the counters, and with one entry for
each span. -/
structure Answered (store : Store) (batch : List Span) (answer : Store × Tally) : Prop where
  grown : answer.2.Grown store.stats.counters answer.1.stats.counters
  total_eq : answer.2.retained + answer.2.truncated + answer.2.duplicates + answer.2.unplaced =
    batch.length

variable {store : Store} {limits : Limits}

theorem grown_ingestPlaced (store : Store) (batch : List (TraceId × Span)) :
    (store.ingestPlaced batch).2.Grown store.engine.counters
      (store.ingestPlaced batch).1.engine.counters :=
  Engine.grown_run store.engine batch (Tally.grown_empty _)

theorem total_ingestPlaced (store : Store) (batch : List (TraceId × Span)) :
    (store.ingestPlaced batch).2.total = batch.length := by
  calc (store.ingestPlaced batch).2.total
      = Tally.total {} + batch.length := Engine.total_run store.engine batch {}
    _ = batch.length := Nat.zero_add _

/-- What every store with given limits keeps: its engine is sound, and its accounts are in order. -/
structure Kept (limits : Limits) (store : Store) : Prop where
  sound : store.engine.Sound
  limits_eq : store.engine.limits = limits
  grouped : store.engine.Grouped
  received_eq : store.spansReceived = store.engine.counters.retained +
    store.engine.counters.truncated + store.engine.counters.duplicates +
    store.engine.counters.unplaced

theorem kept_new (groups spans : Nat) : (new groups spans).Kept (.of groups spans) :=
  ⟨Engine.sound_new groups spans, rfl, rfl, rfl⟩

theorem Kept.ingestPlaced (h : store.Kept limits) (batch : List (TraceId × Span)) :
    (store.ingestPlaced batch).1.Kept limits := by
  have hgrown := store.grown_ingestPlaced batch
  obtain ⟨hsound, hgrouped, hlimits⟩ := Engine.grouped_run h.sound h.grouped batch
  refine ⟨hsound, hlimits.trans h.limits_eq, hgrouped, ?_⟩
  calc (store.ingestPlaced batch).1.spansReceived
      = store.spansReceived + (store.ingestPlaced batch).2.total := by
        rw [store.total_ingestPlaced]
        rfl
    _ = (store.ingestPlaced batch).1.engine.counters.retained +
          (store.ingestPlaced batch).1.engine.counters.truncated +
          (store.ingestPlaced batch).1.engine.counters.duplicates +
          (store.ingestPlaced batch).1.engine.counters.unplaced := by
        rw [hgrown.retained_eq, hgrown.truncated_eq, hgrown.duplicates_eq, hgrown.unplaced_eq,
          h.received_eq, Tally.total]
        omega

theorem Kept.after (h : store.Kept limits) (call : Call) : (store.after call).Kept limits := by
  cases call with
  | ingest wire spans => exact h.ingestPlaced _
  | ingestSpans spans => exact h.ingestPlaced _
  | snapshot => exact ⟨h.sound, h.limits_eq, h.grouped, h.received_eq⟩

theorem Kept.afterAll (h : store.Kept limits) (calls : List Call) :
    (store.afterAll calls).Kept limits := by
  induction calls generalizing store with
  | nil => exact h
  | cons call rest ih => exact ih (h.after call)

theorem Kept.balanced (h : store.Kept limits) : store.stats.Balanced :=
  ⟨h.received_eq, h.grouped, h.sound.length_le⟩

/-- **The accounts balance.** After any calls to a new store all spans that came in and all groups
that were made are accounted for, there are no more groups than there may be, and each further batch
is answered with what it adds to the counters. -/
theorem accounts_balance (groups spans : Nat) (calls : List Call) :
    let store := (new groups spans).afterAll calls
    store.stats.limits = .of groups spans ∧ store.stats.Balanced ∧
      (∀ wire batch, store.Answered batch (store.ingest wire batch)) ∧
      ∀ batch, store.Answered batch (store.ingestSpans batch) := by
  intro store
  have hkept : store.Kept (.of groups spans) := (kept_new groups spans).afterAll calls
  refine ⟨hkept.limits_eq, hkept.balanced, ?_, ?_⟩
  · intro wire batch
    refine ⟨store.grown_ingestPlaced _, (store.total_ingestPlaced _).trans ?_⟩
    rw [List.length_map]
  · intro batch
    refine ⟨store.grown_ingestPlaced _, (store.total_ingestPlaced _).trans ?_⟩
    rw [List.length_map]

end Store

end TraceWeave
