import TraceWeave.Proofs.Number.Characters
import TraceWeave.Proofs.Query.Unknown
import TraceWeave.Proofs.Text.Octets
import Mathlib.Data.List.TakeWhile

/-!
# Shown attributes as clauses

An attribute is shown as its key and the display form of its value. With an equals sign between the
two this is a clause, and it finds the trace that the attribute was shown of: display forms of
numbers and truth values have neither blanks nor equals signs in them, so they read as they are. A
text can be anything, and reads as it is only if it is trimmed and has no equals sign.

* `Clause.read?_display`: a clause reads back from the form in which it is shown;
* `Clause.verbatim_display`: which values stand in a clause as they are shown;
* `execute_clause`: the answer to a single clause;
* `execute_shown`: a shown attribute finds its trace.
-/

namespace TraceWeave.Query

open Text Number

/-! ## Reading clauses back -/

namespace Clause

/-- The text is read as it is behind an equals sign. -/
structure Verbatim (value : String) : Prop where
  ne_empty : value ≠ ""
  trimmed_eq : trimmed value = value
  no_equals : '=' ∉ value.toList

/-- The text is read as it is before an equals sign. -/
structure IsKey (key : String) : Prop where
  ne_empty : key ≠ ""
  all_chars : ∀ c ∈ key.toList, c.isAlphanum = true ∨ c ∈ ['_', '.', ':', '-']

theorem IsKey.isKeyChar {key : String} (h : IsKey key) : ∀ c ∈ key.toList, isKeyChar c = true := by
  intro c hc
  have hchar := h.all_chars c hc
  simpa [Clause.isKeyChar, or_assoc] using hchar

theorem isGap_keyChar {c : Char} (h : isKeyChar c = true) : isGap c = false := by
  rw [← Bool.not_eq_true]
  intro hgap
  simp only [isGap, Bool.or_eq_true, beq_iff_eq] at hgap
  rcases hgap with rfl | rfl <;> exact absurd h (by decide)

theorem ne_equals_of_isKeyChar {c : Char} (h : isKeyChar c = true) : c ≠ '=' := by
  rintro rfl
  exact absurd h (by decide)

theorem readKey?_eq_self {cs : List Char} (hne : cs ≠ []) (h : ∀ c ∈ cs, isKeyChar c = true) :
    readKey? cs = some cs := by
  have hfront : cs.dropWhile isGap = cs := by
    cases cs with
    | nil => rfl
    | cons c cs =>
      exact List.dropWhile_cons_of_neg (by simp [isGap_keyChar (h c List.mem_cons_self)])
  have htake : cs.takeWhile isKeyChar = cs := List.takeWhile_eq_self_iff.mpr h
  have hdrop : cs.dropWhile isKeyChar = [] := List.dropWhile_eq_nil_iff.mpr h
  simp [readKey?, hfront, htake, hdrop, hne]

theorem read?_display {c : Clause} (hkey : IsKey c.key) (hvalue : Verbatim c.value) :
    read? c.display = some c := by
  have hchars := hkey.isKeyChar
  have hequals : '=' ∉ c.key.toList := fun hmem => ne_equals_of_isKeyChar (hchars _ hmem) rfl
  have hpieces : pieces '=' c.display.toList = [c.key.toList, c.value.toList] := by
    have htext : c.display.toList = c.key.toList ++ '=' :: c.value.toList := by
      simp [display]
    rw [htext, pieces_append_cons hequals, pieces_of_not_mem hvalue.no_equals]
  have hread : readKey? c.key.toList = some c.key.toList :=
    readKey?_eq_self (by simpa using hkey.ne_empty) hchars
  have htrim : trim c.value.toList = c.value.toList := by
    rw [← toList_trimmed, hvalue.trimmed_eq]
  simp [read?, hpieces, hread, htrim, hvalue.ne_empty]

/-! ## Values as they are shown -/

theorem Verbatim.of_chars {text : String} (hne : text ≠ "")
    (h : ∀ c ∈ text.toList, isBlank c = false ∧ c ≠ '=') : Verbatim text where
  ne_empty := hne
  trimmed_eq := by rw [trimmed, trim_eq_self fun c hc => (h c hc).1, String.ofList_toList]
  no_equals := fun hmem => (h _ hmem).2 rfl

theorem Verbatim.of_numeric {cs : List Char} (hne : cs ≠ []) (h : ∀ c ∈ cs, Numeric c) :
    Verbatim (String.ofList cs) := by
  have hsigns : ∀ c ∈ ['.', 'e', '+', '-'], isBlank c = false ∧ c ≠ '=' := by
    simp [isBlank]
  refine .of_chars (by simpa [← String.toList_inj] using hne) fun c hc => ?_
  rw [String.toList_ofList] at hc
  rcases h c hc with hdigit | hsign
  · refine ⟨isBlank_hexDigit (by simp [isHexDigit, hdigit]), ?_⟩
    rintro rfl
    cases hdigit
  · exact hsigns c hsign

/-- Every value but a text is read as it is shown. -/
theorem verbatim_display {value : AttributeValue}
    (hstring : ∀ text, value = .string text → Verbatim text) : Verbatim value.display := by
  cases value with
  | string text => exact hstring text rfl
  | int i => exact .of_numeric (Numeral.ofInt_ne_nil _) (Numeral.numeric_ofInt _)
  | double x =>
    refine Style.write_induction (P := fun cs => Verbatim (String.ofList cs)) ?_ ?_ ?_
      (fun _ => .of_numeric) x
    · exact .of_chars (by simp [Style.display]) (by simp [Style.display, isBlank])
    · exact .of_chars (by simp [Style.display]) (by simp [Style.display, isBlank])
    · exact .of_chars (by simp [Style.display]) (by simp [Style.display, isBlank])
  | bool b =>
    cases b
    · exact .of_chars (by decide) (by simp [AttributeValue.display, isBlank])
    · exact .of_chars (by decide) (by simp [AttributeValue.display, isBlank])

end Clause

/-! ## Finding the trace -/

variable {snapshot : List TraceGroup} {trace : TraceGroup}

theorem live_of_window_none {options : Options} (h : options.window = none) (now : UInt64)
    (s : Span) : options.Live now s := by
  simp [Options.Live, h]

theorem shown_eq_self {options : Options} (now : UInt64) (hwindow : options.window = none)
    (hpatterns : options.patterns = []) : options.shown snapshot now trace = trace := by
  have hactive : options.active snapshot = [] := by
    rw [Options.active, hpatterns, ite_self]
  rw [Options.shown, hactive, showing_nil, List.map_id]
  simp [live_of_window_none hwindow]

theorem eligible_clause_iff {c : Clause} {now : UInt64} :
    Eligible snapshot { target := .any, clauses := [c] } now trace ↔ c.holds trace = true := by
  rw [holds_iff]
  constructor
  · intro heligible
    obtain ⟨s, hs, -, hcarried⟩ := heligible.clauses c List.mem_cons_self
    exact ⟨s, hs, hcarried⟩
  · rintro ⟨s, hs, hcarried⟩
    refine ⟨⟨s, hs, live_of_window_none rfl now s⟩, ?_, ?_⟩
    · intro clause hclause
      obtain rfl := List.mem_singleton.mp hclause
      exact ⟨s, hs, live_of_window_none rfl now s, hcarried⟩
    · intro hactive
      exact absurd (ite_self _) hactive

/-- A clause alone finds the traces that it holds of, and all of them is shown. -/
theorem execute_clause {c : Clause} (now : UInt64) (hoccurs : Occurs snapshot c.key) :
    execute snapshot { target := .any, clauses := [c] } now =
      .ok ⟨snapshot.filter c.holds, none⟩ := by
  set options : Options := { target := .any, clauses := [c] }
  have hne : snapshot ≠ [] := by
    obtain ⟨trace, htrace, -⟩ := hoccurs
    exact List.ne_nil_of_mem htrace
  -- The key occurs, so the clause is not refused. What is left is that nothing else is cut down.
  have hknown : options.unknown snapshot = [] := by
    simp [Options.unknown, options, hoccurs]
  have hfound : (snapshot.filter (Eligible snapshot options now ·)).map
      (options.shown snapshot now) = snapshot.filter c.holds := by
    have hshown : options.shown snapshot now = id := funext fun _ => shown_eq_self now rfl rfl
    rw [hshown, List.map_id]
    refine List.filter_congr fun trace _ => ?_
    rw [Bool.eq_iff_iff, decide_eq_true_eq, eligible_clause_iff]
  rw [execute_eq hne, if_pos hknown, filterMap_keep, hfound]
  rfl

/-- **What is shown of a trace finds it.** The key of an attribute and its value as it is shown are
read as one clause, and in every snapshot the clause leads to the traces that show the same, unless
the key or a text has characters that clauses take otherwise. -/
theorem execute_shown {s : Span} {a : Attribute} (now : UInt64) (htrace : trace ∈ snapshot)
    (hs : s ∈ trace.spans) (ha : a ∈ s.attributes) (hkey : Clause.IsKey a.key)
    (hstring : ∀ text, a.value = .string text → Clause.Verbatim text) :
    ∃ c : Clause, Clause.readAll [a.key ++ "=" ++ a.value.display] = .ok [c] ∧
      ∃ out, execute snapshot { target := .any, clauses := [c] } now = .ok out ∧
        trace ∈ out.traces ∧
        ∀ other ∈ out.traces, other ∈ snapshot ∧
          ∃ s ∈ other.spans, s.hasAttribute a.key a.value.display = true := by
  refine ⟨⟨a.key, a.value.display⟩, ?_, _, execute_clause now ⟨trace, htrace, s, hs, a, ha, rfl⟩,
    ?_, ?_⟩
  · have hread : Clause.read? (a.key ++ "=" ++ a.value.display) = some ⟨a.key, a.value.display⟩ :=
      Clause.read?_display (c := ⟨a.key, a.value.display⟩) hkey (Clause.verbatim_display hstring)
    rw [Clause.readAll_eq_ok_iff, List.map_singleton, List.map_singleton, hread]
  · exact List.mem_filter.mpr ⟨htrace, holds_iff.mpr ⟨s, hs, a, ha, rfl, rfl⟩⟩
  · intro other hother
    obtain ⟨hmem, hholds⟩ := List.mem_filter.mp hother
    exact ⟨hmem, List.any_eq_true.mp hholds⟩

/-- A double with a power of ten in its display form, and a text with a blank within. -/
theorem execute_shown_power :
    let s : Span :=
      { plainSpan 5 [] with
        attributes := [⟨"load:avg", .double ⟨0x4415AF1D78B58C40⟩⟩, ⟨"url.path", .string "/a b"⟩] }
    let trace : TraceGroup := ⟨⟨"ab02"⟩, [plainSpan 3 [("load:avg", "1")], s]⟩
    let snapshot : List TraceGroup := [⟨⟨"ab01"⟩, [plainSpan 9 [("url.path", "/a")]]⟩, trace]
    (∃ c : Clause, Clause.readAll ["load:avg=1e+20"] = .ok [c] ∧
      ∃ out, execute snapshot { target := .any, clauses := [c] } 0 = .ok out ∧
        trace ∈ out.traces) ∧
    ∃ c : Clause, Clause.readAll ["url.path=/a b"] = .ok [c] ∧
      ∃ out, execute snapshot { target := .any, clauses := [c] } 0 = .ok out ∧
        trace ∈ out.traces := by
  intro s trace snapshot
  have htrace : trace ∈ snapshot := List.mem_cons_of_mem _ List.mem_cons_self
  have hs : s ∈ trace.spans := List.mem_cons_of_mem _ List.mem_cons_self
  refine ⟨?_, ?_⟩
  · have hkey : Clause.IsKey "load:avg" := ⟨by decide, by simp⟩
    have hdisplay : (AttributeValue.double ⟨0x4415AF1D78B58C40⟩).display = "1e+20" := by
      decide +kernel
    obtain ⟨c, hread, out, hout, hmem, -⟩ :=
      execute_shown 0 htrace hs List.mem_cons_self hkey (by simp)
    rw [hdisplay] at hread
    exact ⟨c, hread, out, hout, hmem⟩
  · have hkey : Clause.IsKey "url.path" := ⟨by decide, by simp⟩
    have hstring : ∀ text, AttributeValue.string "/a b" = .string text → Clause.Verbatim text := by
      rintro _ ⟨⟩
      exact ⟨by decide, by decide, by decide⟩
    obtain ⟨c, hread, out, hout, hmem, -⟩ :=
      execute_shown 0 htrace hs (List.mem_cons_of_mem _ List.mem_cons_self) hkey hstring
    exact ⟨c, hread, out, hout, hmem⟩

end TraceWeave.Query
