import TraceWeave.Proofs.Grouping.Retention
import TraceWeave.Proofs.Otlp.Ingestion
import TraceWeave.Proofs.Trace.Reread

/-!
# What clients can read

A store fills up with the spans of the requests that it receives, and a client reads the payload
of its snapshot. A double that is no number is taken in like any other attribute, but what is
written for it is not read, so that one such value hides all traces of the store.

* `payload_readable_iff`: which payloads are read, with the keys and spans that the store holds;
* `payload_unreadable`: a request that leaves one that is not;
* `payload_read_of_finite`: requests with finite doubles leave one that is.
-/

namespace TraceWeave.Otlp

open Grouping

/-- The groups that a store answers with after it has received requests. -/
def heldAfter (store : Store) (echo : Bool) (requests : List ExportRequest) : List TraceGroup :=
  (receiveAll store echo requests).1.snapshot.2

/-- **When a client can read what a store holds.** The payload of the snapshot is read with the
keys and the span identifiers that the store holds, exactly if every double of every span in it is
finite; otherwise it is not read at all. -/
theorem payload_readable_iff (store : Store) (echo : Bool) (requests : List ExportRequest) :
    let held := heldAfter store echo requests
    ((∃ read, Snapshot.ofPayload? (Snapshot.payload held) = some read ∧
        read.map TraceGroup.outline = held.map TraceGroup.outline) ↔
      ∀ g ∈ held, g.IsFinite) ∧
    ((¬∀ g ∈ held, g.IsFinite) → Snapshot.ofPayload? (Snapshot.payload held) = none) := by
  intro held
  refine ⟨Snapshot.readable_iff, ?_⟩
  rw [Snapshot.ofPayload?_payload, ← Snapshot.isSome_reread?_iff]
  exact Option.not_isSome_iff_eq_none.mp

/-- One value that is no number hides the trace that it stands in, and all others with it. -/
theorem payload_unreadable :
    let spanOf (traceId id : UInt8) (value : AttributeValue) : ExportedSpan :=
      { traceId := [traceId], id := [id], parent := [],
        attributes := [⟨"ratio", .scalar value⟩] }
    let requests : List ExportRequest :=
      [[⟨none, [[spanOf 1 1 (.double .nan), spanOf 2 2 (.bool true)]]⟩]]
    let held := heldAfter (.new 10 10) true requests
    held.map TraceGroup.outline = [(⟨"02"⟩, [⟨"02"⟩]), (⟨"01"⟩, [⟨"01"⟩])] ∧
      ¬∃ read, Snapshot.ofPayload? (Snapshot.payload held) = some read ∧
        read.map TraceGroup.outline = held.map TraceGroup.outline := by
  intro spanOf requests held
  have hunread : Snapshot.reread? held = none := by decide +kernel
  refine ⟨by decide +kernel, ?_⟩
  rintro ⟨read, hread, -⟩
  rw [Snapshot.ofPayload?_payload, hunread] at hread
  cases hread

/-- Requests whose doubles are finite leave nothing else in a store that was empty. -/
theorem finite_heldAfter (groups spans : Nat) (echo : Bool) (requests : List ExportRequest)
    (hfinite : ∀ request ∈ requests, ∀ s ∈ ExportRequest.kept request, ∀ a ∈ s.attributes,
      a.value.IsFinite) :
    ∀ g ∈ heldAfter (.new groups spans) echo requests, g.IsFinite := by
  intro g hg s hs
  have hengine : (receiveAll (.new groups spans) echo requests).1.engine =
      ((Engine.new groups spans).run
        ((requests.flatMap ExportRequest.kept).map fun s => (s.wireTraceId, s))).1 := by
    rw [receiveAll_eq, Engine.fst_run, List.foldl_map]
    rfl
  simp only [heldAfter, Store.snapshot, hengine, Engine.snapshot] at hg
  obtain ⟨⟨key, m⟩, hmem, rfl⟩ := List.mem_map.mp hg
  obtain ⟨-, rfl⟩ := (Engine.mem_groups_iff (Engine.sound_run groups spans _)).mp hmem
  refine Engine.forall_retained_run (P := fun s => ∀ a ∈ s.attributes, a.value.IsFinite)
    groups spans _ ?_ key s hs
  intro step hstep
  obtain ⟨t, hkept, rfl⟩ := List.mem_map.mp hstep
  obtain ⟨request, hrequest, ht⟩ := List.mem_flatMap.mp hkept
  exact hfinite request hrequest t ht

/-- **Finite values are always read.** As long as no sender sends a double that is no number,
clients read every payload, whatever else the requests hold. -/
theorem payload_read_of_finite (groups spans : Nat) (echo : Bool) (requests : List ExportRequest)
    (hfinite : ∀ request ∈ requests, ∀ s ∈ ExportRequest.kept request, ∀ a ∈ s.attributes,
      a.value.IsFinite) :
    let held := heldAfter (.new groups spans) echo requests
    ∃ read, Snapshot.ofPayload? (Snapshot.payload held) = some read ∧
      read.map TraceGroup.outline = held.map TraceGroup.outline :=
  Snapshot.readable_iff.mpr (finite_heldAfter groups spans echo requests hfinite)

end TraceWeave.Otlp
