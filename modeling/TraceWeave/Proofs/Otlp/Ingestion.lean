import TraceWeave.Otlp.Receiver
import TraceWeave.Proofs.Text.Octets

/-!
# Which exported spans are taken in

A request is a nest of resources, scopes and spans. What becomes of it is decided span by span: the
identifiers of a span alone say whether it is kept, and the spans that are kept go to the store in
the order in which they stand in the request. The store cannot tell how they were packed.

* `convert_eq_ok_iff`: which spans are kept, and as what;
* `kept_eq`: what is left of a request;
* `receiveAll_ingested`: what requests do to a store, and how they are answered.
-/

namespace TraceWeave

open Text

/-! ## Identifiers of bytes -/

theorem isHexDigit_digit : ∀ n < 16, isHexDigit (Hex.digit n) = true := by
  decide

theorem isHexDigit_ofBytes (bytes : List UInt8) :
    ∀ c ∈ Hex.ofBytes bytes, isHexDigit c = true := by
  intro c hc
  obtain ⟨b, -, hc⟩ := List.mem_flatMap.mp hc
  have hb : b.toNat < 256 := b.toNat_lt_size
  rcases List.mem_pair.mp hc with rfl | rfl
  · exact isHexDigit_digit _ (by omega)
  · exact isHexDigit_digit _ (by omega)

theorem utf8ByteSize_ofBytes (bytes : List UInt8) :
    (String.ofList (Hex.ofBytes bytes)).utf8ByteSize = 2 * bytes.length := by
  calc (String.ofList (Hex.ofBytes bytes)).utf8ByteSize
      = byteLength (Hex.ofBytes bytes) := size_utf8Encode _
    _ = (Hex.ofBytes bytes).length := byteLength_hexDigits (isHexDigit_ofBytes bytes)
    _ = 2 * bytes.length := Hex.length_ofBytes bytes

theorem isEmpty_ofBytes (bytes : List UInt8) :
    (String.ofList (Hex.ofBytes bytes)).isEmpty = bytes.isEmpty := by
  cases bytes <;> simp [Hex.ofBytes]

theorem TraceId.ofBytes_eq_ok_iff {bytes : List UInt8} {id : TraceId} :
    ofBytes bytes = .ok id ↔
      bytes ≠ [] ∧ bytes.length ≤ 16 ∧ id = ⟨String.ofList (Hex.ofBytes bytes)⟩ := by
  rw [ofBytes, ofText_eq_ok_iff, isEmpty_ofBytes, List.isEmpty_eq_false_iff, utf8ByteSize_ofBytes]
  have hlength : 2 * bytes.length ≤ 32 ↔ bytes.length ≤ 16 := by omega
  rw [hlength]

theorem SpanId.ofBytes_eq_ok_iff {bytes : List UInt8} {id : SpanId} :
    ofBytes bytes = .ok id ↔
      bytes ≠ [] ∧ bytes.length ≤ 8 ∧ id = ⟨String.ofList (Hex.ofBytes bytes)⟩ := by
  rw [ofBytes, ofText_eq_ok_iff, isEmpty_ofBytes, List.isEmpty_eq_false_iff, utf8ByteSize_ofBytes]
  have hlength : 2 * bytes.length ≤ 16 ↔ bytes.length ≤ 8 := by omega
  rw [hlength]

namespace Otlp

open Grouping

/-! ## One span -/

theorem bind_eq_ok_iff {ε α β : Type} {x : Except ε α} {f : α → Except ε β} {b : β} :
    x >>= f = .ok b ↔ ∃ a, x = .ok a ∧ f a = .ok b := by
  cases x <;> simp [bind, Except.bind]

namespace ExportedSpan

/-- The span names no parent: exporters leave it out, or write zeros. -/
def Parentless (t : ExportedSpan) : Prop :=
  ∀ b ∈ t.parent, b = 0

instance : DecidablePred Parentless := fun t =>
  inferInstanceAs (Decidable (∀ b ∈ t.parent, b = 0))

/-- The identifiers of a span that is kept. -/
structure WellFormed (t : ExportedSpan) : Prop where
  traceId : 1 ≤ t.traceId.length ∧ t.traceId.length ≤ 16
  parent : t.Parentless ∨ t.parent.length ≤ 8
  id : (1 ≤ t.id.length ∧ t.id.length ≤ 8) ∨ (t.id = [] ∧ ¬t.Parentless)

theorem wellFormed_iff {t : ExportedSpan} :
    t.WellFormed ↔ (1 ≤ t.traceId.length ∧ t.traceId.length ≤ 16) ∧
      (t.Parentless ∨ t.parent.length ≤ 8) ∧
      ((1 ≤ t.id.length ∧ t.id.length ≤ 8) ∨ (t.id = [] ∧ ¬t.Parentless)) :=
  ⟨fun h => ⟨h.traceId, h.parent, h.id⟩, fun h => ⟨h.1, h.2.1, h.2.2⟩⟩

instance : DecidablePred WellFormed := fun _ =>
  decidable_of_iff _ wellFormed_iff.symm

/-- The span as it is kept, with its identifiers in hexadecimal digits. -/
def toSpan (t : ExportedSpan) (service : String) : Span where
  wireTraceId := ⟨String.ofList (Hex.ofBytes t.traceId)⟩
  id := ⟨String.ofList (Hex.ofBytes t.id)⟩
  parent := if t.Parentless then none else some ⟨String.ofList (Hex.ofBytes t.parent)⟩
  name := t.name
  start := t.start
  finish := t.finish
  service := service
  attributes := scalars t.attributes

theorem all_zero_eq (t : ExportedSpan) : t.parent.all (· == 0) = decide t.Parentless := by
  rw [Bool.eq_iff_iff, decide_eq_true_eq, List.all_eq_true]
  simp only [beq_iff_eq]
  rfl

theorem ne_nil_of_not_parentless {t : ExportedSpan} (h : ¬t.Parentless) : t.parent ≠ [] := by
  intro hnil
  apply h
  simp [Parentless, hnil]

theorem parentId_eq_ok_iff {t : ExportedSpan} {parent : Option SpanId} :
    t.parentId = .ok parent ↔
      (t.Parentless ∨ t.parent.length ≤ 8) ∧
        parent = if t.Parentless then none else some ⟨String.ofList (Hex.ofBytes t.parent)⟩ := by
  rw [parentId, all_zero_eq]
  by_cases hnone : t.Parentless
  · simp [hnone, eq_comm]
  · have hne := ne_nil_of_not_parentless hnone
    simp only [hnone, decide_false, Bool.false_eq_true, if_false, false_or]
    constructor
    · intro h
      cases hid : SpanId.ofBytes t.parent with
      | error fault => rw [hid] at h; cases h
      | ok id =>
        rw [hid] at h
        obtain ⟨-, hlength, rfl⟩ := SpanId.ofBytes_eq_ok_iff.mp hid
        exact ⟨hlength, (Except.ok.inj h).symm⟩
    · rintro ⟨hlength, rfl⟩
      rw [SpanId.ofBytes_eq_ok_iff.mpr ⟨hne, hlength, rfl⟩]
      rfl

theorem spanId_eq_ok_iff {t : ExportedSpan} {parent : Option SpanId} {id : SpanId} :
    t.spanId parent = .ok id ↔
      ((1 ≤ t.id.length ∧ t.id.length ≤ 8) ∨ (t.id = [] ∧ parent.isSome = true)) ∧
        id = ⟨String.ofList (Hex.ofBytes t.id)⟩ := by
  rw [spanId]
  by_cases hnil : t.id = []
  · -- No bytes are written as the mark of a span without an identifier.
    have hmark : SpanId.mk (String.ofList (Hex.ofBytes t.id)) = .unassigned := by
      rw [hnil]
      rfl
    rw [hmark]
    cases hparent : parent.isSome <;> simp [hnil, eq_comm]
  · have hpos : 1 ≤ t.id.length := List.length_pos_iff.mpr hnil
    rw [if_neg (by simpa using hnil), SpanId.ofBytes_eq_ok_iff]
    simp [hnil, hpos]

/-- **When a span is kept**: exactly if its identifiers are well formed. -/
theorem convert_eq_ok_iff {t : ExportedSpan} {service : String} {s : Span} :
    t.convert service = .ok s ↔ t.WellFormed ∧ s = t.toSpan service := by
  rw [convert, wellFormed_iff]
  by_cases hnil : t.traceId = []
  · simp only [hnil, List.isEmpty_nil, if_true, List.length_nil]
    constructor
    · intro h
      cases h
    · rintro ⟨⟨⟨hpos, -⟩, -⟩, -⟩
      omega
  · have hpos : 1 ≤ t.traceId.length := List.length_pos_iff.mpr hnil
    rw [if_neg (by simpa using hnil)]
    simp only [bind_eq_ok_iff, TraceId.ofBytes_eq_ok_iff, parentId_eq_ok_iff,
      spanId_eq_ok_iff, hpos, true_and]
    constructor
    · rintro ⟨traceId, ⟨-, htrace, rfl⟩, parent, ⟨hparent, rfl⟩, id, ⟨hid, rfl⟩, h⟩
      refine ⟨⟨htrace, hparent, ?_⟩, (Except.ok.inj h).symm⟩
      by_cases hnone : t.Parentless <;> simpa [hnone] using hid
    · rintro ⟨⟨htrace, hparent, hid⟩, rfl⟩
      refine ⟨_, ⟨hnil, htrace, rfl⟩, _, ⟨hparent, rfl⟩, _, ⟨?_, rfl⟩, rfl⟩
      by_cases hnone : t.Parentless <;> simpa [hnone] using hid

theorem toOption_convert (t : ExportedSpan) (service : String) :
    (t.convert service).toOption = if t.WellFormed then some (t.toSpan service) else none := by
  by_cases hwell : t.WellFormed
  · rw [if_pos hwell, convert_eq_ok_iff.mpr ⟨hwell, rfl⟩]
    rfl
  · rw [if_neg hwell]
    cases hconvert : t.convert service with
    | error fault => rfl
    | ok s => exact absurd (convert_eq_ok_iff.mp hconvert).1 hwell

end ExportedSpan

/-! ## One request -/

namespace ExportRequest

/-- The spans of a request as they stand in it, each with the service that sent it. -/
def sent (request : ExportRequest) : List (String × ExportedSpan) :=
  request.flatMap fun r => r.scopes.flatMap fun scope =>
    scope.map fun t => (serviceName r.resource, t)

theorem attempts_eq (request : ExportRequest) :
    attempts request = (sent request).map fun (service, t) => (service, t.convert service) := by
  rw [attempts, sent, List.map_flatMap]
  refine List.flatMap_congr fun r _ => ?_
  rw [ResourceSpans.attempts, List.map_flatten, List.map_flatMap, List.flatMap_def]
  congr 1
  refine List.map_congr_left fun scope _ => ?_
  rw [List.map_map]
  rfl

/-- What is left of a request: the spans that are well formed, in order. -/
theorem kept_eq (request : ExportRequest) :
    kept request =
      ((sent request).filter fun (_, t) => t.WellFormed).map
        fun (service, t) => t.toSpan service := by
  rw [kept, attempts_eq, List.filterMap_map]
  induction sent request with
  | nil => rfl
  | cons x rest ih =>
    obtain ⟨service, t⟩ := x
    rw [List.filterMap_cons, ih]
    simp only [Function.comp, ExportedSpan.toOption_convert]
    by_cases hwell : t.WellFormed <;> simp [hwell]

end ExportRequest

/-! ## Many requests -/

theorem receive_eq (store : Store) (echo : Bool) (request : ExportRequest) :
    (receive store echo request).1 =
      { store with
        engine := (ExportRequest.kept request).foldl (fun e s => (e.place s.wireTraceId s).1)
          store.engine
        batches := store.batches + if ExportRequest.kept request = [] then 0 else 1
        spansReceived := store.spansReceived + (ExportRequest.kept request).length } := by
  unfold receive
  cases hkept : ExportRequest.kept request with
  | nil => rfl
  | cons s rest => simp [Store.ingestSpans, Store.ingestPlaced, Engine.fst_run, List.foldl_map]

theorem response_receive (store : Store) (echo : Bool) (request : ExportRequest) :
    (receive store echo request).2.response = { status := .ok, partialSuccess := none } := by
  unfold receive
  dsimp only
  split <;> rfl

/-- How the spans were packed into requests shows only in the number of batches. -/
theorem receiveAll_eq (store : Store) (echo : Bool) (requests : List ExportRequest) :
    (receiveAll store echo requests).1 =
      { store with
        engine := (requests.flatMap ExportRequest.kept).foldl
          (fun e s => (e.place s.wireTraceId s).1) store.engine
        batches := store.batches + (requests.filter (ExportRequest.kept · ≠ [])).length
        spansReceived := store.spansReceived + (requests.flatMap ExportRequest.kept).length } := by
  induction requests generalizing store with
  | nil => rfl
  | cons request rest ih =>
    calc (receiveAll store echo (request :: rest)).1
        = (receiveAll (receive store echo request).1 echo rest).1 := rfl
      _ = _ := by
        rw [ih, receive_eq, List.flatMap_cons, List.foldl_append, List.length_append,
          List.filter_cons]
        by_cases hkept : ExportRequest.kept request = [] <;>
          simp [hkept, Nat.add_assoc, Nat.add_comm 1]

theorem responses_receiveAll (store : Store) (echo : Bool) (requests : List ExportRequest) :
    (receiveAll store echo requests).2.map (·.response) =
      requests.map fun _ => { status := .ok, partialSuccess := none } := by
  induction requests generalizing store with
  | nil => rfl
  | cons request rest ih =>
    calc (receiveAll store echo (request :: rest)).2.map (·.response)
        = (receive store echo request).2.response ::
            (receiveAll (receive store echo request).1 echo rest).2.map (·.response) := rfl
      _ = _ := by rw [response_receive, ih, List.map_cons]

/-- **What requests do to a store.** Of every request exactly the well-formed spans are kept, in the
order in which they stand in it, and the others are counted as dropped. The engine is as if the
spans kept of all requests had been placed one by one, each under the identifier that it carries; a
request counts as a batch if something was kept of it; and every answer is a full success. -/
theorem receiveAll_ingested (store : Store) (echo : Bool) (requests : List ExportRequest) :
    (∀ request, ExportRequest.kept request = ((ExportRequest.sent request).filter fun (_, t) =>
          t.WellFormed).map (fun (service, t) => t.toSpan service) ∧
        (ExportRequest.kept request).length + (ExportRequest.dropped request).length =
          (ExportRequest.sent request).length) ∧
      (receiveAll store echo requests).1 =
        { store with
          engine := (requests.flatMap ExportRequest.kept).foldl
            (fun e s => (e.place s.wireTraceId s).1) store.engine
          batches := store.batches + (requests.filter (ExportRequest.kept · ≠ [])).length
          spansReceived := store.spansReceived + (requests.flatMap ExportRequest.kept).length } ∧
      (receiveAll store echo requests).2.map (·.response) =
        requests.map fun _ => { status := .ok, partialSuccess := none } := by
  refine ⟨fun request => ⟨ExportRequest.kept_eq request, ?_⟩, receiveAll_eq store echo requests,
    responses_receiveAll store echo requests⟩
  rw [ExportRequest.length_kept_add_length_dropped, ExportRequest.attempts_eq, List.length_map]

/-- Of four spans that were sent in one request two are kept: a parent of zeros is none, and a span
without an identifier needs a parent. Nothing is kept of the other request. -/
theorem receiveAll_ingested_mixed :
    let spanOf (id parent : List UInt8) : ExportedSpan :=
      { traceId := [171], id := id, parent := parent, attributes := [] }
    let root := spanOf [1] [0, 0, 0]
    let nameless := spanOf [] [1]
    let unnamed := spanOf [] [0]
    let stray := spanOf [2] [1, 2, 3, 4, 5, 6, 7, 8, 9]
    let requests : List ExportRequest :=
      [[⟨none, [[root, unnamed], [stray]]⟩, ⟨none, [[nameless]]⟩], [⟨none, [[unnamed]]⟩]]
    let kept (id : String) (parent : Option SpanId) : Span :=
      { wireTraceId := ⟨"ab"⟩, id := ⟨id⟩, parent := parent, name := "", start := 0, finish := 0,
        service := "unknown", attributes := [] }
    let result := receiveAll (.new 10 10) false requests
    requests.map ExportRequest.kept = [[kept "01" none, kept "" (some ⟨"01"⟩)], []] ∧
      result.1.engine = (((Engine.new 10 10).place ⟨"ab"⟩ (kept "01" none)).1.place ⟨"ab"⟩
        (kept "" (some ⟨"01"⟩))).1 ∧
      result.1.batches = 1 ∧ result.1.spansReceived = 2 ∧
      result.2.map (·.response) = [⟨.ok, none⟩, ⟨.ok, none⟩] := by
  intro spanOf root nameless unnamed stray requests kept result
  obtain ⟨hkept, hstore, hresponses⟩ := receiveAll_ingested (.new 10 10) false requests
  have hread : requests.map ExportRequest.kept =
      [[kept "01" none, kept "" (some ⟨"01"⟩)], []] := by
    rw [List.map_congr_left fun request _ => (hkept request).1]
    decide +kernel
  have hall : requests.flatMap ExportRequest.kept = [kept "01" none, kept "" (some ⟨"01"⟩)] := by
    rw [List.flatMap_def, hread]
    rfl
  have hbatches : (requests.filter (ExportRequest.kept · ≠ [])).length = 1 := by
    obtain ⟨hfirst, hrest⟩ := List.cons.inj hread
    obtain ⟨hsecond, -⟩ := List.cons.inj hrest
    simp [requests, hfirst, hsecond]
  rw [hall, hbatches] at hstore
  have hresult : result.1 = _ := hstore
  refine ⟨hread, ?_, ?_, ?_, hresponses⟩
  all_goals
    rw [hresult]
    rfl

end Otlp

end TraceWeave
