import TraceWeave.Proofs.Trace.Reread
import TraceWeave.View.Format

/-!
# Documents that come back as they were

A snapshot is written on one line for clients and with a line for each item for readers. Both texts
are read as the same snapshot, and as the one that was written, exactly if each of its doubles is
read back from its numeral: the format tells everything else apart, once no parent is named by the
empty text.

* `Snapshot.ofPayload?_tracesDocument`: what the text for readers is read as;
* `Snapshot.reread?_eq_self_iff`: which snapshots are read as themselves;
* `Snapshot.returned_iff`: both texts of a snapshot with finite doubles.
-/

namespace TraceWeave

open Json

/-! ## Two layouts -/

/-- The text for readers is read as the text for clients is. -/
theorem Snapshot.ofPayload?_tracesDocument (groups : List TraceGroup) :
    ofPayload? (View.tracesDocument groups) = reread? groups := by
  have hparse : parse (write .pretty 0 (toJson groups) ++ ['\n']) = some (toJson groups) :=
    parse_write Layout.blank_pretty (printable_toJson groups) rfl
  have htext : (View.tracesDocument groups).toList =
      write .pretty 0 (toJson groups) ++ ['\n'] := by
    rw [View.tracesDocument, pretty, String.toList_append, String.toList_ofList]
    rfl
  rw [ofPayload?, htext, hparse, Option.bind_some, ofJson?_toJson]

/-! ## What is read as it was -/

/-- A double is read back from its numeral. -/
def AttributeValue.Returns : AttributeValue → Prop
  | .double x => toDouble? (Number.Style.json.write x) = some x
  | _ => True

instance : DecidablePred AttributeValue.Returns
  | .double x => inferInstanceAs (Decidable (toDouble? (Number.Style.json.write x) = some x))
  | .string _ | .int _ | .bool _ => .isTrue trivial

/-- All doubles of all attributes are read back from their numerals. -/
def TraceGroup.Returns (g : TraceGroup) : Prop :=
  ∀ s ∈ g.spans, ∀ a ∈ s.attributes, a.value.Returns

instance : DecidablePred TraceGroup.Returns := fun g =>
  inferInstanceAs (Decidable (∀ s ∈ g.spans, ∀ a ∈ s.attributes, a.value.Returns))

/-- A record that is read by one of its parts is read as it was, if that part is. -/
theorem map_eq_some_iff_of_part {α β : Type} {whole : α → β} (part : β → α) {o : Option α} {b : β}
    (hpart : ∀ a, part (whole a) = a) (hwhole : whole (part b) = b) :
    o.map whole = some b ↔ o = some (part b) := by
  rw [Option.map_eq_some_iff]
  constructor
  · rintro ⟨a, ha, rfl⟩
    rw [ha, hpart]
  · intro ha
    exact ⟨part b, ha, hwhole⟩

theorem AttributeValue.reread?_eq_self_iff {v : AttributeValue} (hfinite : v.IsFinite) :
    v.reread? = some v ↔ v.Returns := by
  cases v with
  | double x =>
    have hx : x.isFinite = true := hfinite
    simp [reread?, Returns, hx]
  | _ => simp [reread?, Returns]

theorem Attribute.reread?_eq_self_iff {a : Attribute} (hfinite : a.value.IsFinite) :
    a.reread? = some a ↔ a.value.Returns := by
  rw [reread?, map_eq_some_iff_of_part Attribute.value (fun _ => rfl) rfl]
  exact AttributeValue.reread?_eq_self_iff hfinite

theorem Span.reread?_eq_self_iff {s : Span} (hfinite : ∀ a ∈ s.attributes, a.value.IsFinite)
    (hparent : ∀ p, s.parent = some p → p.isUnassigned = false) :
    s.reread? = some s ↔ ∀ a ∈ s.attributes, a.value.Returns := by
  have hkept : s.parent.filter (!·.isUnassigned) = s.parent := by
    cases hp : s.parent with
    | none => rfl
    | some p => exact Option.filter_some_pos (by simp [hparent p hp])
  rw [reread?, hkept, map_eq_some_iff_of_part Span.attributes (fun _ => rfl) rfl,
    mapM_eq_self_iff]
  exact forall₂_congr fun a ha => Attribute.reread?_eq_self_iff (hfinite a ha)

theorem TraceGroup.reread?_eq_self_iff {g : TraceGroup} (hfinite : g.IsFinite)
    (hparents : ∀ s ∈ g.spans, ∀ p, s.parent = some p → p.isUnassigned = false) :
    g.reread? = some g ↔ g.Returns := by
  rw [reread?, map_eq_some_iff_of_part TraceGroup.spans (fun _ => rfl) rfl,
    mapM_eq_self_iff]
  exact forall₂_congr fun s hs => Span.reread?_eq_self_iff (hfinite s hs) (hparents s hs)

theorem Snapshot.reread?_eq_self_iff {groups : List TraceGroup}
    (hfinite : ∀ g ∈ groups, g.IsFinite)
    (hparents : ∀ g ∈ groups, ∀ s ∈ g.spans, ∀ p, s.parent = some p → p.isUnassigned = false) :
    reread? groups = some groups ↔ ∀ g ∈ groups, g.Returns := by
  rw [reread?, mapM_eq_self_iff]
  exact forall₂_congr fun g hg => TraceGroup.reread?_eq_self_iff (hfinite g hg) (hparents g hg)

/-- **Which snapshots come back.** If all doubles are finite and no parent is named by the empty
text, both texts of a snapshot are read, and they are read as the snapshot exactly if its doubles
are read back from their numerals. -/
theorem Snapshot.returned_iff (groups : List TraceGroup) (hfinite : ∀ g ∈ groups, g.IsFinite)
    (hparents : ∀ g ∈ groups, ∀ s ∈ g.spans, ∀ p, s.parent = some p → p.isUnassigned = false) :
    (∃ read, ofPayload? (payload groups) = some read ∧
        ofPayload? (View.tracesDocument groups) = some read) ∧
      ((∀ g ∈ groups, g.Returns) ↔ ofPayload? (payload groups) = some groups ∧
        ofPayload? (View.tracesDocument groups) = some groups) := by
  rw [ofPayload?_payload, ofPayload?_tracesDocument, and_self_iff,
    ← reread?_eq_self_iff hfinite hparents]
  obtain ⟨read, hread⟩ := Option.isSome_iff_exists.mp (isSome_reread?_iff.mpr hfinite)
  exact ⟨⟨read, hread, hread⟩, Iff.rfl⟩

/-- Empty identifiers, escapes of all kinds, the largest time and the smallest whole number, a key
that stands twice, a double with many digits and minus zero, and a group without spans. -/
theorem Snapshot.returned_awkward :
    let span : Span := {
      wireTraceId := ⟨""⟩
      id := ⟨""⟩
      parent := some ⟨"\x00 "⟩
      name := "\" \\ / \n \t \x08 \x0c \x1f \x7f é 😀"
      start := 18446744073709551615
      finish := 0
      service := ""
      attributes := [⟨"", .int (-9223372036854775808)⟩, ⟨"ratio", .double ⟨0x3fb999999999999a⟩⟩,
        ⟨"ratio", .double ⟨0x8000000000000000⟩⟩, ⟨"\r", .string "null"⟩, ⟨"on", .bool false⟩]
    }
    let groups : List TraceGroup := [⟨⟨"a"⟩, [span, span]⟩, ⟨⟨"b"⟩, []⟩]
    (∀ g ∈ groups, g.IsFinite) ∧
      (∀ g ∈ groups, ∀ s ∈ g.spans, ∀ p, s.parent = some p → p.isUnassigned = false) ∧
      (∀ g ∈ groups, g.Returns) ∧ ofPayload? (payload groups) = some groups ∧
      ofPayload? (View.tracesDocument groups) = some groups := by
  intro span groups
  have hfinite : ∀ g ∈ groups, g.IsFinite := by decide +kernel
  have hparents : ∀ g ∈ groups, ∀ s ∈ g.spans, ∀ p, s.parent = some p → p.isUnassigned = false := by
    simp [groups, span, SpanId.isUnassigned]
  have hreturns : ∀ g ∈ groups, g.Returns := by decide +kernel
  exact ⟨hfinite, hparents, hreturns, (returned_iff groups hfinite hparents).2.mp hreturns⟩

end TraceWeave
