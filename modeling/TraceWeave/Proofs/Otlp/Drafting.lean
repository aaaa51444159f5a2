import TraceWeave.Proofs.Otlp.Ingestion
import TraceWeave.Trace.Draft

/-!
# Exported spans as drafts

An exporter sends bytes, a draft holds texts, and each of the two has checks of its own: the one
counts bytes and looks for zeros, the other measures texts and looks for empty ones. Whoever drafts
an exported span, with the hexadecimal digits of its bytes, gets the span that receiving it leads
to, or the same refusal. Only two refusals are worded differently: an export that lacks a trace
identifier, and a root that lacks an identifier of its own.

* `ExportedSpan.draft`: the draft of an exported span, filled in part by part;
* `build_draft`: checking the draft and converting the span differ in the wording of faults only;
* `hexText_injective`: different bytes have different texts;
* `convert_drafted`: both ways accept the same spans and make the same of them, and identifiers tell
  spans apart, and link them, as their bytes do.
-/

namespace TraceWeave

open Text

/-! ## Texts of identifiers -/

/-- The text that stands for the bytes of an identifier. -/
def hexText (bytes : List UInt8) : String :=
  String.ofList (Hex.ofBytes bytes)

theorem isEmpty_hexText (bytes : List UInt8) : (hexText bytes).isEmpty = bytes.isEmpty :=
  isEmpty_ofBytes bytes

theorem hexText_injective : Function.Injective hexText := fun _ _ h =>
  Hex.ofBytes_injective (String.ofList_inj.mp h)

/-! ## Faults -/

/-- The fault that a draft has where an export has this one. -/
def SpanFault.drafted : SpanFault → SpanFault
  | .exportedTraceIdEmpty => .traceIdEmpty
  | .exportedRootWithoutId => .spanIdEmpty
  | fault => fault

theorem mapError_bind {ε ε' α β : Type} (f : ε → ε') (x : Except ε α) (g : α → Except ε β) :
    (x >>= g).mapError f = x.mapError f >>= fun a => (g a).mapError f := by
  cases x <;> rfl

theorem mapError_map {ε ε' α β : Type} (f : ε → ε') (x : Except ε α) (g : α → β) :
    (x.map g).mapError f = (x.mapError f).map g := by
  cases x <;> rfl

theorem mapError_eq_ok_iff {ε ε' α : Type} {f : ε → ε'} {x : Except ε α} {a : α} :
    x.mapError f = .ok a ↔ x = .ok a := by
  cases x <;> simp [Except.mapError]

/-- What is wrong with a text is told in the same words wherever it comes from. -/
theorem TraceId.mapError_ofText (s : String) :
    (ofText s).mapError SpanFault.drafted = ofText s := by
  unfold ofText
  split
  · rfl
  · split <;> rfl

theorem SpanId.mapError_ofText (s : String) :
    (ofText s).mapError SpanFault.drafted = ofText s := by
  unfold ofText
  split
  · rfl
  · split <;> rfl

/-! ## Drafts -/

namespace Otlp

/-- Puts an exported attribute into a draft, if its value is one that a span can carry. -/
def KeyValue.addTo (a : KeyValue) (d : SpanDraft) : SpanDraft :=
  match a.value with
  | .scalar value => d.withAttribute a.key value
  | .composite | .missing => d

theorem foldl_addTo (attributes : List KeyValue) (d : SpanDraft) :
    attributes.foldl (fun d a => a.addTo d) d =
      { d with attributes := d.attributes ++ scalars attributes } := by
  induction attributes generalizing d with
  | nil => simp [scalars]
  | cons a rest ih =>
    obtain ⟨key, value⟩ := a
    rw [List.foldl_cons, ih]
    cases value with
    | scalar value => simp [KeyValue.addTo, SpanDraft.withAttribute, scalars, AnyValue.scalar?]
    | composite => rfl
    | missing => rfl

namespace ExportedSpan

/-- The text that names the parent; it is empty where there is none. -/
def parentText (t : ExportedSpan) : String :=
  if t.Parentless then "" else hexText t.parent

/-- The draft of an exported span: texts for its bytes, and its attributes one after another. -/
def draft (t : ExportedSpan) (service : String) : SpanDraft :=
  t.attributes.foldl (fun d a => a.addTo d) {
    traceId := some (hexText t.traceId)
    id := some (hexText t.id)
    parent := some t.parentText
    name := t.name
    service := some service
    start := t.start
    finish := t.finish
  }

/-! ## Checking the draft -/

theorem parentOf_parentText (t : ExportedSpan) :
    SpanDraft.parentOf (some t.parentText) = t.parentId.mapError SpanFault.drafted := by
  rw [SpanDraft.parentOf, parentText, parentId, all_zero_eq]
  by_cases hnone : t.Parentless
  · simp [hnone, Except.mapError]
  · have hne : (hexText t.parent).isEmpty = false := by
      rw [isEmpty_hexText]
      simpa using ne_nil_of_not_parentless hnone
    simp only [hnone, hne, if_false, decide_false, Bool.false_eq_true]
    calc (SpanId.ofText (hexText t.parent)).map some
        = ((SpanId.ofText (hexText t.parent)).mapError SpanFault.drafted).map some := by
          rw [SpanId.mapError_ofText]
      _ = ((SpanId.ofBytes t.parent).map some).mapError SpanFault.drafted :=
          (mapError_map ..).symm

theorem idOf_hexText (t : ExportedSpan) (parent : Option SpanId) :
    SpanDraft.idOf parent (hexText t.id) = (t.spanId parent).mapError SpanFault.drafted := by
  rw [SpanDraft.idOf, spanId, isEmpty_hexText]
  by_cases hnil : t.id = []
  · rw [hnil]
    cases parent <;> rfl
  · have hne : t.id.isEmpty = false := by simpa using hnil
    rw [hne, Bool.false_and, if_neg Bool.false_ne_true, if_neg Bool.false_ne_true]
    exact (SpanId.mapError_ofText _).symm

/-- **Bytes and texts are checked alike.** The draft of an exported span leads to the span that the
conversion leads to, or to its fault in the words that are used of drafts. -/
theorem build_draft (t : ExportedSpan) (service : String) :
    (t.draft service).build = (t.convert service).mapError SpanFault.drafted := by
  rw [draft, foldl_addTo, SpanDraft.build, convert]
  dsimp only
  by_cases hnil : t.traceId = []
  · rw [hnil]
    rfl
  · rw [if_neg (by simpa using hnil)]
    simp only [mapError_bind, parentOf_parentText, idOf_hexText, pure_bind]
    rw [TraceId.ofBytes, TraceId.mapError_ofText]
    rfl

theorem build_draft_eq_ok_iff {t : ExportedSpan} {service : String} {s : Span} :
    (t.draft service).build = .ok s ↔ t.convert service = .ok s := by
  rw [build_draft, mapError_eq_ok_iff]

/-! ## Telling spans apart -/

/-- Two spans are told apart by their identifiers, and linked by them, as the exported spans `t` and
`u` that they come from are by their bytes. -/
structure Distinguishes (t u : ExportedSpan) (s r : Span) : Prop where
  wireTraceId : s.wireTraceId = r.wireTraceId ↔ t.traceId = u.traceId
  id : s.id = r.id ↔ t.id = u.id
  siblings : s.parent = r.parent ↔ (t.Parentless ∧ u.Parentless) ∨ t.parent = u.parent
  child : s.parent = some r.id ↔ ¬t.Parentless ∧ t.parent = u.id

theorem distinguishes_toSpan (t u : ExportedSpan) (service other : String) :
    Distinguishes t u (t.toSpan service) (u.toSpan other) := by
  have htext : ∀ {a b}, String.ofList (Hex.ofBytes a) = String.ofList (Hex.ofBytes b) ↔ a = b :=
    hexText_injective.eq_iff
  constructor
  case wireTraceId => simp only [toSpan, TraceId.mk.injEq, htext]
  case id => simp only [toSpan, SpanId.mk.injEq, htext]
  case siblings =>
    -- Equal bytes are zeros on both sides or on neither, so the mixed cases exclude them.
    by_cases ht : t.Parentless
    · by_cases hu : u.Parentless
      · simp [toSpan, ht, hu]
      · have hne : t.parent ≠ u.parent := fun h => hu (by rwa [Parentless, ← h])
        simp [toSpan, ht, hu, hne]
    · by_cases hu : u.Parentless
      · have hne : t.parent ≠ u.parent := fun h => ht (by rwa [Parentless, h])
        simp [toSpan, ht, hu, hne]
      · simp [toSpan, ht, hu, htext]
  case child => by_cases hnone : t.Parentless <;> simp [toSpan, hnone, htext]

/-- **Exported spans as drafts.** A span is converted exactly if its draft passes, that is, if its
identifiers are well formed, and both ways lead to the same span; where it is refused, the draft is
refused for the same reason. Different bytes have different texts, and of any two spans that are
converted the identifiers agree where the bytes do. -/
theorem convert_drafted (t : ExportedSpan) (service : String) :
    (∀ s, t.convert service = .ok s ↔ (t.draft service).build = .ok s) ∧
      (∀ s, (t.draft service).build = .ok s ↔ t.WellFormed ∧ s = t.toSpan service) ∧
      (∀ fault, t.convert service = .error fault →
        (t.draft service).build = .error fault.drafted) ∧
      Function.Injective hexText ∧
      ∀ (u : ExportedSpan) (other : String) (s r : Span),
        t.convert service = .ok s → u.convert other = .ok r → Distinguishes t u s r := by
  refine ⟨fun s => build_draft_eq_ok_iff.symm, fun s => ?_, fun fault hfault => ?_,
    hexText_injective, ?_⟩
  · rw [build_draft_eq_ok_iff, convert_eq_ok_iff]
  · rw [build_draft, hfault]
    rfl
  · intro u other s r hs hr
    rw [(convert_eq_ok_iff.mp hs).2, (convert_eq_ok_iff.mp hr).2]
    exact distinguishes_toSpan t u service other

/-- A call without an identifier of its own, under the root that it names. -/
theorem convert_drafted_call :
    let call : ExportedSpan :=
      { traceId := [0x0a, 0xf7], id := [], parent := [0, 0, 0, 0, 0, 0, 0, 1], name := "call",
        attributes := [⟨"body", .composite⟩, ⟨"retries", .scalar (.int 2)⟩, ⟨"note", .missing⟩,
          ⟨"retries", .scalar (.int 3)⟩] }
    let root : ExportedSpan :=
      { traceId := [0xaf, 0x07], id := [0, 0, 0, 0, 0, 0, 0, 1], parent := List.replicate 9 0 }
    ∃ s r, (call.draft "shop").build = .ok s ∧ (root.draft "till").build = .ok r ∧
      s.attributes = [⟨"retries", .int 2⟩, ⟨"retries", .int 3⟩] ∧ s.id = .unassigned ∧
      s.parent = some r.id ∧ s.wireTraceId ≠ r.wireTraceId ∧ r.parent = none := by
  intro call root
  obtain ⟨hcall, hcallWell, -, -, hlinks⟩ := convert_drafted call "shop"
  obtain ⟨hroot, hrootWell, -, -, -⟩ := convert_drafted root "till"
  have hs := (hcallWell (call.toSpan "shop")).mpr ⟨by decide +kernel, rfl⟩
  have hr := (hrootWell (root.toSpan "till")).mpr ⟨by decide +kernel, rfl⟩
  have hlinked := hlinks root "till" _ _ ((hcall _).mpr hs) ((hroot _).mpr hr)
  have hzeros : root.Parentless := fun _ hb => List.eq_of_mem_replicate hb
  refine ⟨_, _, hs, hr, rfl, rfl, ?_, ?_, ?_⟩
  · exact hlinked.child.mpr ⟨by decide +kernel, rfl⟩
  · rw [Ne, hlinked.wireTraceId]
    simp [call, root]
  · rw [toSpan, if_pos hzeros]

end ExportedSpan

end Otlp

end TraceWeave
