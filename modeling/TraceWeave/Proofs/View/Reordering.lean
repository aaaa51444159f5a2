import TraceWeave.Proofs.View.Attributes
import TraceWeave.View.Tree
import Mathlib.Data.List.Forall2

/-!
# Trees of spans in another order

Spans come in as the network brings them, and a tree should not show it. It does not: only the order
of spans that start together can be seen in it, and of the attributes of a span only the order of
those with the same key.

* `Alike`, `Rearranged`: the changes of order that are not to be seen;
* `branches_byStart`: the lines of the spans depend on the start of each span and on the text that
  is written for it, and on nothing else of it;
* `Rearranged.summary_eq`: the time bounds do not depend on the order;
* `tree_rearranged`: the tree of a trace whose spans and attributes are rearranged, and the text of
  it, with the time from the start of the trace in the line of each span.
-/

namespace TraceWeave

namespace View

/-! ## Spans -/

/-- The same span with its attributes in another order, but those of one key as they stood. -/
structure Alike (s t : Span) : Prop where
  attributes : Reordered (·.key) s.attributes t.attributes
  rest_eq : t = { s with attributes := t.attributes }

/-- The same trace with its spans in another order, but those that start together as they stood,
and with the attributes of each span in another order. -/
def Rearranged (trace trace' : TraceGroup) : Prop :=
  trace'.key = trace.key ∧
    ∃ spans, Reordered (·.start) trace.spans spans ∧ List.Forall₂ Alike spans trace'.spans

/-- The start of a span, by which it is sorted, and the lines that are written for it. -/
def sketch (verbose : Bool) (start : Nat) (s : Span) : UInt64 × (Branch → String) :=
  (s.start, fun branch => spanLines verbose start branch s)

theorem Alike.sketch_eq {s t : Span} (h : Alike s t) (verbose : Bool) (start : Nat) :
    sketch verbose start t = sketch verbose start s := by
  have hservice : t.service = s.service := by rw [h.rest_eq]
  have hname : t.name = s.name := by rw [h.rest_eq]
  have hstart : t.start = s.start := by rw [h.rest_eq]
  simp only [sketch, spanLines, hservice, hname, hstart,
    shown_reordered verbose hservice h.attributes]

theorem branches_map {α β : Type} (write : Branch → β → String) (f : α → β) (items : List α) :
    branches (fun branch a => write branch (f a)) items = branches write (items.map f) := by
  induction items with
  | nil => rfl
  | cons item rest ih =>
    cases rest with
    | nil => rfl
    | cons next rest => exact congrArg _ ih

/-- The lines of the spans are written from their sketches. -/
theorem branches_byStart (verbose : Bool) (start : Nat) (spans : List Span) :
    branches (spanLines verbose start) (byStart spans) =
      branches (fun branch x => x.2 branch)
        ((spans.map (sketch verbose start)).mergeSort fun a b => a.1 ≤ b.1) := by
  have hsort : ((spans.map (sketch verbose start)).mergeSort fun a b => a.1 ≤ b.1) =
      (byStart spans).map (sketch verbose start) :=
    (List.map_mergeSort (f := sketch verbose start) fun _ _ _ _ => rfl).symm
  rw [hsort]
  exact branches_map (fun branch x => x.2 branch) (sketch verbose start) (byStart spans)

/-! ## Traces -/

section Traces

variable {trace trace' : TraceGroup}

theorem map_eq_of_alike {γ : Type} {f : Span → γ} {spans spans' : List Span}
    (h : List.Forall₂ Alike spans spans') (hf : ∀ s t, Alike s t → f t = f s) :
    spans'.map f = spans.map f := by
  induction h with
  | nil => rfl
  | cons hst _ ih => rw [List.map_cons, List.map_cons, ih, hf _ _ hst]

/-- What a tree takes from the spans one by one, it takes from rearranged ones as well. -/
theorem Rearranged.map_perm {γ : Type} {f : Span → γ} (h : Rearranged trace trace')
    (hf : ∀ s t, Alike s t → f t = f s) : (trace.spans.map f).Perm (trace'.spans.map f) := by
  obtain ⟨-, spans, hspans, halike⟩ := h
  rw [map_eq_of_alike halike hf]
  exact hspans.perm.map f

theorem min?_perm {times times' : List Nat} (h : times.Perm times') :
    times.min? = times'.min? := by
  ext n
  simp only [List.min?_eq_some_iff, h.mem_iff]

theorem max?_perm {times times' : List Nat} (h : times.Perm times') :
    times.max? = times'.max? := by
  ext n
  simp only [List.max?_eq_some_iff, h.mem_iff]

theorem Rearranged.summary_eq (h : Rearranged trace trace') : trace'.summary = trace.summary := by
  have hstart : trace'.start = trace.start := by
    rw [TraceGroup.start, TraceGroup.start,
      min?_perm (h.map_perm fun s t (hst : Alike s t) => by rw [hst.rest_eq])]
  have hfinish : trace'.finish = trace.finish := by
    rw [TraceGroup.finish, TraceGroup.finish,
      max?_perm (h.map_perm fun s t (hst : Alike s t) => by rw [hst.rest_eq])]
  rw [TraceGroup.summary, TraceGroup.summary, h.1, hstart, hfinish]

theorem Rearranged.branches_eq (h : Rearranged trace trace') (verbose : Bool) (start : Nat) :
    branches (spanLines verbose start) (byStart trace'.spans) =
      branches (spanLines verbose start) (byStart trace.spans) := by
  obtain ⟨-, spans, hspans, halike⟩ := h
  have hsorted : byStart trace.spans = byStart spans := hspans.mergeSort_eq
  have hsketch := map_eq_of_alike halike fun s t hst => hst.sketch_eq verbose start
  rw [hsorted, branches_byStart, branches_byStart, hsketch]

/-- **A tree does not show in which order spans came in.** The trees of a trace and of one that
differs from it only in the order of spans, not counting those that start together, and of the
attributes of a span, not counting those of one key, are the same text. In it stand the spans sorted
by their starts, and with each of them the time from the start of the trace to its own. That time is
zero for the first one and is never cut off at zero. -/
theorem tree_rearranged (verbose : Bool) (trace : TraceGroup) :
    (∀ trace', Rearranged trace trace' → tree verbose trace' = tree verbose trace) ∧
      (trace.spans = [] → tree verbose trace = "No spans found for this trace.\n") ∧
      (trace.spans ≠ [] → ∃ spans, ∃ offset : Span → Nat,
        Reordered (·.start) trace.spans spans ∧ spans.Pairwise (·.start ≤ ·.start) ∧
        (∃ s ∈ spans, offset s = 0) ∧
        (∀ s ∈ spans, offset s + trace.summary.start = s.start.toNat) ∧
        tree verbose trace =
          "\nTrace: " ++ trace.key.text ++ " (" ++
            writeMillis (trace.summary.finish - trace.summary.start) ++ " total)\n\n" ++
            branches (fun branch s =>
              branch.tie ++ writeMillis (offset s) ++ " " ++ s.service ++
                (if s.name.isEmpty then "" else " " ++ s.name) ++ "\n" ++
                branches (leaf branch.below) (shown verbose s)) spans ++ "\n") := by
  refine ⟨fun trace' h => ?_, fun hempty => ?_, fun hne => ?_⟩
  · have hempty : trace'.spans.isEmpty = trace.spans.isEmpty := by
      have hlength := (h.map_perm (f := fun _ => ()) fun _ _ _ => rfl).length_eq
      rw [List.length_map, List.length_map] at hlength
      rw [Bool.eq_iff_iff, List.isEmpty_iff_length_eq_zero, List.isEmpty_iff_length_eq_zero,
        hlength]
    simp only [tree, hempty, h.1, h.summary_eq, h.branches_eq]
  · rw [tree, if_pos (List.isEmpty_iff.mpr hempty)]
  · have hsorted : Reordered (·.start) trace.spans (byStart trace.spans) :=
      reordered_mergeSort (·.start) trace.spans
    obtain ⟨first, hfirst, hstart⟩ := TraceGroup.exists_start_eq hne
    refine ⟨byStart trace.spans, fun s => s.start.toNat - trace.summary.start, hsorted,
      pairwise_mergeSort (·.start) trace.spans, ?_, fun s hs => ?_, ?_⟩
    · exact ⟨first, hsorted.perm.mem_iff.mp hfirst, Nat.sub_eq_zero_of_le hstart.le⟩
    · exact Nat.sub_add_cancel (TraceGroup.start_le (hsorted.perm.mem_iff.mpr hs))
    · rw [tree, if_neg (by simpa using hne)]
      rfl

/-- Two spans start together, and one of them has a key twice. -/
theorem tree_rearranged_ties :
    let span (name : String) (start : UInt64) (attributes : List Attribute) : Span :=
      { wireTraceId := ⟨"ab"⟩, id := ⟨name⟩, parent := none, name := name, start := start,
        finish := start, service := "api", attributes := attributes }
    let early := span "early" 2000000 []
    let twin := span "twin" 7000000 []
    let late := span "late" 7000000 [⟨"k", .int 1⟩, ⟨"http.method", .string "GET"⟩, ⟨"k", .int 2⟩]
    let late' := span "late" 7000000 [⟨"http.method", .string "GET"⟩, ⟨"k", .int 1⟩, ⟨"k", .int 2⟩]
    let trace : TraceGroup := ⟨⟨"ab"⟩, [late, twin, early]⟩
    let trace' : TraceGroup := ⟨⟨"ab"⟩, [early, late', twin]⟩
    Rearranged trace trace' ∧ trace.spans ≠ [] ∧ tree false trace' = tree false trace ∧
      tree false trace =
        "\nTrace: ab (5ms total)\n\n├── 0ms api early\n├── 5ms api late\n" ++
          "│   ├── http.method: GET\n│   └── k: 2\n└── 5ms api twin\n\n" := by
  intro span early twin late late' trace trace'
  have h : Rearranged trace trace' := by
    refine ⟨rfl, [early, late, twin], by decide, ?_⟩
    exact .cons ⟨by decide, rfl⟩ (.cons ⟨by decide, rfl⟩ (.cons ⟨by decide, rfl⟩ .nil))
  have hne : trace.spans ≠ [] := List.cons_ne_nil _ _
  obtain ⟨hsame, -, htext⟩ := tree_rearranged false trace
  obtain ⟨spans, offset, hspans, hsorted, -, hoffset, htree⟩ := htext hne
  obtain rfl : [early, late, twin] = spans := by
    have hclass : Reordered (·.start) [early, late, twin] trace.spans := by decide
    exact (hclass.trans hspans).eq_of_sorted (by decide) hsorted
  have hstart : trace.summary.start = 2000000 := by decide
  have hfinish : trace.summary.finish = 7000000 := by decide
  have hearly : offset early = 0 := by simpa [hstart, early, span] using hoffset early (by simp)
  have hlate : offset late = 5000000 := by simpa [hstart, late, span] using hoffset late (by simp)
  have htwin : offset twin = 5000000 := by simpa [hstart, twin, span] using hoffset twin (by simp)
  refine ⟨h, hne, hsame trace' h, ?_⟩
  rw [htree, hstart, hfinish]
  simp only [branches, hearly, hlate, htwin]
  decide +kernel

end Traces

end View

end TraceWeave
