import TraceWeave.Proofs.Json.Doubles
import TraceWeave.Proofs.Json.RoundTrip
import TraceWeave.Proofs.Lists
import TraceWeave.Trace.Document

/-!
# Payloads that are read back

A snapshot that was written is read back as it was, except for what the format cannot tell apart:
a parent that is named by the empty text becomes none, and a double becomes the one that its
numeral is read as. A double that is no number is not read back at all, nor is the snapshot that it
stands in.

* `Snapshot.ofPayload?_payload`: what a payload is read as;
* `Snapshot.isSome_reread?_iff`: it is read exactly if all doubles are finite;
* `Snapshot.outlines_of_reread?`: keys and span identifiers come back as they were.
-/

namespace TraceWeave

open Json

namespace Json

/-! ## Records -/

/-- The members of a record are read as its fields. -/
theorem fields?_members {names : List String} {members : List (String × Json)}
    (hnames : members.map (·.1) = names) (hnodup : names.Nodup) :
    fields? names (record members) = some (members.map fun m => some m.2) := by
  subst hnames
  rw [fields?_record, List.mapM_map]
  apply mapM_eq_some
  intro m hm
  have hmember : members.filter (·.1 == m.1) = [m] := by
    simpa only [beq_eq_decide] using filter_key hnodup hm
  simp [field?, hmember]

theorem printable_record {members : List (String × Json)} (h : ∀ m ∈ members, Printable m.2) :
    (record members).Printable := by
  refine .object ?_ ?_
  · intro m hm
    obtain ⟨_, _, rfl⟩ := List.mem_map.mp hm
    rfl
  · intro m hm
    obtain ⟨member, hmember, rfl⟩ := List.mem_map.mp hm
    exact h member hmember

theorem printable_map {α : Type} {toJson : α → Json} (h : ∀ a, (toJson a).Printable)
    (l : List α) : (Json.array (l.map toJson)).Printable := by
  refine .array ?_
  intro j hj
  obtain ⟨a, -, rfl⟩ := List.mem_map.mp hj
  exact h a

theorem list?_map {α : Type} {toJson : α → Json} {ofJson? : Json → Option α}
    {reread? : α → Option α} (h : ∀ a, ofJson? (toJson a) = reread? a) (l : List α) :
    list? ofJson? (.array (l.map toJson)) = l.mapM reread? := by
  rw [list?, List.mapM_map]
  congr 1
  funext a
  exact h a

end Json

/-! ## What comes back -/

/-- What a value is read back as. -/
def AttributeValue.reread? : AttributeValue → Option AttributeValue
  | .double x =>
    if x.isFinite then (toDouble? (Number.Style.json.write x)).map .double else none
  | value => some value

def Attribute.reread? (a : Attribute) : Option Attribute :=
  a.value.reread?.map (⟨a.key, ·⟩)

def Span.reread? (s : Span) : Option Span :=
  (s.attributes.mapM Attribute.reread?).map fun attributes =>
    { s with parent := s.parent.filter (!·.isUnassigned), attributes := attributes }

def TraceGroup.reread? (g : TraceGroup) : Option TraceGroup :=
  (g.spans.mapM Span.reread?).map (⟨g.key, ·⟩)

def Snapshot.reread? (groups : List TraceGroup) : Option (List TraceGroup) :=
  groups.mapM TraceGroup.reread?

/-! ## Reading what was written -/

@[simp] theorem text?_text (s : String) : text? (text s) = some s := rfl

theorem signedWord?_ofInt (i : Int64) :
    signedWord? (text (String.ofList (Text.Numeral.ofInt i.toInt))) = some i := by
  have hlt := i.toInt_lt
  have hread : Text.Numeral.int64? (Text.Numeral.ofInt i.toInt) = some i.toInt :=
    Text.Numeral.signed?_ofInt i.le_toInt (by omega)
  simp [text, signedWord?, hread]

theorem unsignedWord?_timeToJson (t : UInt64) : unsignedWord? (timeToJson t) = some t := by
  have hlt := t.toNat_lt
  have hle : t.toNat ≤ maxUnsigned := by
    simp only [maxUnsigned]
    omega
  have hread := Text.Numeral.unsigned?_ofNat hle
  have hne : (String.ofList (Text.Numeral.ofNat t.toNat)).isEmpty = false := by
    simp [Text.Numeral.ofNat_ne_nil]
  simp [timeToJson, text, unsignedWord?, hread, hne]

theorem parentOfJson?_text (parent : Option SpanId) :
    parentOfJson? (text (match parent with | some p => p.text | none => "")) =
      some (parent.filter (!·.isUnassigned)) := by
  cases parent with
  | none => rfl
  | some p =>
    cases hp : p.text.isEmpty with
    | true => simp [parentOfJson?, text, SpanId.isUnassigned, Option.filter_some, hp]
    | false => simp [parentOfJson?, text, SpanId.isUnassigned, Option.filter_some, hp]

theorem AttributeValue.ofJson?_toJson (v : AttributeValue) : ofJson? v.toJson = v.reread? := by
  cases v with
  | string s => rfl
  | int i => exact congrArg (Option.map AttributeValue.int) (signedWord?_ofInt i)
  | double x =>
    cases hfinite : x.isFinite with
    | true => simp [toJson, record, ofJson?, reread?, hfinite, double?]
    | false => simp [toJson, record, ofJson?, reread?, hfinite, double?]
  | bool b => rfl

theorem Attribute.ofJson?_toJson (a : Attribute) : ofJson? a.toJson = a.reread? := by
  have hfields : fields? ["key", "value"] a.toJson =
      some [some (text a.key), some a.value.toJson] := fields?_members rfl (by decide)
  simp only [ofJson?, hfields, required, text?_text, AttributeValue.ofJson?_toJson, reread?,
    Option.bind_eq_bind, Option.bind_some]
  cases a.value.reread? <;> rfl

theorem Span.ofJson?_toJson (s : Span) : ofJson? s.toJson = s.reread? := by
  have hfields : fields? fieldNames s.toJson = some [some (text s.wireTraceId.text),
      some (text s.id.text),
      some (text (match s.parent with | some p => p.text | none => "")), some (text s.name),
      some (timeToJson s.start), some (timeToJson s.finish), some (text s.service),
      some (.array (s.attributes.map Attribute.toJson))] := fields?_members rfl (by decide)
  have hattributes := list?_map Attribute.ofJson?_toJson s.attributes
  simp only [ofJson?, hfields, required, defaulted, Option.bind_some, Option.bind_eq_bind,
    parentOfJson?_text, unsignedWord?_timeToJson, hattributes, text?_text, reread?]
  cases s.attributes.mapM Attribute.reread? <;> rfl

theorem TraceGroup.ofJson?_toJson (g : TraceGroup) : ofJson? g.toJson = g.reread? := by
  have hfields : fields? ["trace_id", "spans"] g.toJson =
      some [some (text g.key.text), some (.array (g.spans.map Span.toJson))] :=
    fields?_members rfl (by decide)
  have hspans := list?_map Span.ofJson?_toJson g.spans
  simp only [ofJson?, hfields, required, defaulted, text?_text, hspans, reread?,
    Option.bind_eq_bind, Option.bind_some]
  cases g.spans.mapM Span.reread? <;> rfl

theorem Snapshot.ofJson?_toJson (groups : List TraceGroup) :
    ofJson? (toJson groups) = reread? groups := by
  have hfields : fields? ["traces"] (toJson groups) =
      some [some (.array (groups.map TraceGroup.toJson))] := fields?_members rfl (by decide)
  have hgroups := list?_map TraceGroup.ofJson?_toJson groups
  simp only [ofJson?, hfields, defaulted, hgroups, reread?, Option.bind_eq_bind, Option.bind_some]

/-! ## What is written is printable -/

theorem AttributeValue.printable_toJson (v : AttributeValue) : v.toJson.Printable := by
  cases v with
  | string s => exact printable_record (by simpa using .text s)
  | int i => exact printable_record (by simpa using .text _)
  | double x =>
    refine printable_record ?_
    rw [List.forall_mem_singleton]
    split
    · next hfinite =>
      obtain ⟨n, hn, hliteral, -⟩ := finite_written x hfinite
      exact hliteral ▸ .number hn
    · exact .null
  | bool b => exact printable_record (by simpa using .bool b)

theorem Attribute.printable_toJson (a : Attribute) : a.toJson.Printable := by
  refine printable_record ?_
  rw [List.forall_mem_cons, List.forall_mem_singleton]
  exact ⟨.text a.key, a.value.printable_toJson⟩

theorem Span.printable_toJson (s : Span) : s.toJson.Printable := by
  refine printable_record ?_
  simp only [List.forall_mem_cons]
  exact ⟨.text _, .text _, .text _, .text _, .text _, .text _, .text _,
    printable_map Attribute.printable_toJson _, by simp⟩

theorem TraceGroup.printable_toJson (g : TraceGroup) : g.toJson.Printable := by
  refine printable_record ?_
  rw [List.forall_mem_cons, List.forall_mem_singleton]
  exact ⟨.text _, printable_map Span.printable_toJson _⟩

theorem Snapshot.printable_toJson (groups : List TraceGroup) : (toJson groups).Printable := by
  refine printable_record ?_
  rw [List.forall_mem_singleton]
  exact printable_map TraceGroup.printable_toJson _

/-- **What a payload is read as.** -/
theorem Snapshot.ofPayload?_payload (groups : List TraceGroup) :
    ofPayload? (payload groups) = reread? groups := by
  rw [ofPayload?, payload, parse_compact (printable_toJson groups), Option.bind_some,
    ofJson?_toJson]

/-! ## What is read back -/

/-- The value is no double that is no number. -/
def AttributeValue.IsFinite : AttributeValue → Prop
  | .double x => x.isFinite = true
  | _ => True

instance : DecidablePred AttributeValue.IsFinite
  | .double x => inferInstanceAs (Decidable (x.isFinite = true))
  | .string _ | .int _ | .bool _ => .isTrue trivial

/-- All values of all attributes are finite. -/
def TraceGroup.IsFinite (g : TraceGroup) : Prop :=
  ∀ s ∈ g.spans, ∀ a ∈ s.attributes, a.value.IsFinite

instance : DecidablePred TraceGroup.IsFinite := fun g =>
  inferInstanceAs (Decidable (∀ s ∈ g.spans, ∀ a ∈ s.attributes, a.value.IsFinite))

theorem AttributeValue.isSome_reread?_iff {v : AttributeValue} :
    v.reread?.isSome = true ↔ v.IsFinite := by
  cases v with
  | double x =>
    cases hfinite : x.isFinite with
    | true =>
      obtain ⟨n, -, hliteral, hread⟩ := finite_written x hfinite
      rw [hliteral] at hread
      simp [reread?, IsFinite, hfinite, hread]
    | false => simp [reread?, IsFinite, hfinite]
  | _ => simp [reread?, IsFinite]

theorem TraceGroup.isSome_reread?_iff {g : TraceGroup} :
    g.reread?.isSome = true ↔ g.IsFinite := by
  simp only [reread?, Span.reread?, Attribute.reread?, Option.isSome_map, isSome_mapM, IsFinite,
    AttributeValue.isSome_reread?_iff]

theorem Snapshot.isSome_reread?_iff {groups : List TraceGroup} :
    (reread? groups).isSome = true ↔ ∀ g ∈ groups, g.IsFinite := by
  simp only [reread?, isSome_mapM, TraceGroup.isSome_reread?_iff]

/-- The key of a group with the identifiers of its spans. -/
def TraceGroup.outline (g : TraceGroup) : TraceId × List SpanId :=
  (g.key, g.spans.map (·.id))

theorem Span.id_of_reread? (s t : Span) (h : s.reread? = some t) : t.id = s.id := by
  obtain ⟨attributes, -, rfl⟩ := Option.map_eq_some_iff.mp h
  rfl

theorem TraceGroup.outline_of_reread? (g h : TraceGroup) (hread : g.reread? = some h) :
    h.outline = g.outline := by
  obtain ⟨spans, hspans, rfl⟩ := Option.map_eq_some_iff.mp hread
  exact congrArg (g.key, ·) (map_of_mapM Span.id_of_reread? hspans)

theorem Snapshot.outlines_of_reread? {groups read : List TraceGroup}
    (hread : reread? groups = some read) :
    read.map TraceGroup.outline = groups.map TraceGroup.outline :=
  map_of_mapM TraceGroup.outline_of_reread? hread

/-- A payload is read, with the keys and span identifiers that were written, exactly if all doubles
in it are finite. -/
theorem Snapshot.readable_iff {groups : List TraceGroup} :
    (∃ read, ofPayload? (payload groups) = some read ∧
        read.map TraceGroup.outline = groups.map TraceGroup.outline) ↔
      ∀ g ∈ groups, g.IsFinite := by
  rw [ofPayload?_payload, ← isSome_reread?_iff]
  constructor
  · rintro ⟨read, hread, -⟩
    rw [hread]
    rfl
  · intro hsome
    obtain ⟨read, hread⟩ := Option.isSome_iff_exists.mp hsome
    exact ⟨read, hread, outlines_of_reread? hread⟩

end TraceWeave
