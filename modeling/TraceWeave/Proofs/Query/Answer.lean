import TraceWeave.Query.Execute
import Mathlib.Logic.Basic

/-!
# What a query answers

An answer is made in steps, each of which cuts down what the one before it has left. Here the traces
of an answer are described at once, by what the snapshot itself says: which traces are eligible, and
what is shown of them. Target and limit take their share of these in the end.

* `keepRecent_eq`, `keepSelected_eq`, `keep_eq`: what the steps leave of a trace;
* `active_eq`: which of the patterns count;
* `execute_traces`: the traces of an answer.
-/

namespace TraceWeave.Query

/-! ## What is asked for -/

/-- The span started within the window, if there is a window. -/
def Options.Live (options : Options) (now : UInt64) (s : Span) : Prop :=
  ∀ w ∈ options.window, w.cutoff now ≤ s.start.toNat

instance (options : Options) (now : UInt64) : DecidablePred (options.Live now) := fun _ =>
  inferInstanceAs (Decidable (∀ _ ∈ options.window, _))

/-- The patterns that count: none of them, if the snapshot has traces and none of the patterns
selects a key of it. -/
def Options.active (options : Options) (snapshot : List TraceGroup) : List Pattern :=
  if snapshot ≠ [] ∧ ∀ p ∈ options.patterns, ∀ trace ∈ snapshot, ∀ s ∈ trace.spans,
      ∀ a ∈ s.attributes, p.selects a.key = false then []
  else options.patterns

/-- The trace has some live span; for every clause some live span that carries the pair; and, if
patterns count, some live span with a key that one of them selects. -/
structure Eligible (snapshot : List TraceGroup) (options : Options) (now : UInt64)
    (trace : TraceGroup) : Prop where
  live : ∃ s ∈ trace.spans, options.Live now s
  clauses : ∀ c ∈ options.clauses, ∃ s ∈ trace.spans, options.Live now s ∧
    ∃ a ∈ s.attributes, a.key = c.key ∧ a.value.display = c.value
  patterns : options.active snapshot ≠ [] → ∃ s ∈ trace.spans, options.Live now s ∧
    ∃ a ∈ s.attributes, ∃ p ∈ options.active snapshot, p.selects a.key = true

theorem eligible_iff {snapshot : List TraceGroup} {options : Options} {now : UInt64}
    {trace : TraceGroup} :
    Eligible snapshot options now trace ↔
      (∃ s ∈ trace.spans, options.Live now s) ∧
        (∀ c ∈ options.clauses, ∃ s ∈ trace.spans, options.Live now s ∧
          ∃ a ∈ s.attributes, a.key = c.key ∧ a.value.display = c.value) ∧
        (options.active snapshot ≠ [] → ∃ s ∈ trace.spans, options.Live now s ∧
          ∃ a ∈ s.attributes, ∃ p ∈ options.active snapshot, p.selects a.key = true) :=
  ⟨fun h => ⟨h.live, h.clauses, h.patterns⟩, fun h => ⟨h.1, h.2.1, h.2.2⟩⟩

instance (snapshot : List TraceGroup) (options : Options) (now : UInt64) :
    DecidablePred (Eligible snapshot options now) := fun _ =>
  decidable_of_iff _ eligible_iff.symm

/-- The span with the attributes that some of the patterns selects, or with all of them if there are
no patterns. -/
def showing (patterns : List Pattern) (s : Span) : Span :=
  { s with
    attributes := s.attributes.filter fun a =>
      patterns = [] ∨ ∃ p ∈ patterns, p.selects a.key = true }

/-- What is shown of a trace: all its live spans, with the attributes that the active patterns
leave. -/
def Options.shown (options : Options) (snapshot : List TraceGroup) (now : UInt64)
    (trace : TraceGroup) : TraceGroup where
  key := trace.key
  spans := (trace.spans.filter fun s => options.Live now s).map (showing (options.active snapshot))

/-! ## The steps -/

theorem all_map_le_eq {α : Type} (o : Option α) (f : α → Nat) (n : Nat) :
    (o.map f).all (· ≤ n) = decide (∀ a ∈ o, f a ≤ n) := by
  cases o <;> simp

theorem all_cutoff_eq (options : Options) (now : UInt64) (s : Span) :
    (options.window.map (·.cutoff now)).all (· ≤ s.start.toNat) = decide (options.Live now s) :=
  all_map_le_eq _ _ _

theorem keepRecent_eq (options : Options) (now : UInt64) (trace : TraceGroup) :
    keepRecent (options.window.map (·.cutoff now)) trace =
      if ∃ s ∈ trace.spans, options.Live now s then
        some { trace with spans := trace.spans.filter fun s => options.Live now s }
      else none := by
  simp only [keepRecent, all_cutoff_eq, List.isEmpty_iff, List.filter_eq_nil_iff,
    decide_eq_true_eq]
  by_cases h : ∃ s ∈ trace.spans, options.Live now s
  · rw [if_pos h, if_neg (by simpa using h)]
  · rw [if_neg h, if_pos (by simpa using h)]

theorem holds_iff {c : Clause} {trace : TraceGroup} :
    c.holds trace = true ↔
      ∃ s ∈ trace.spans, ∃ a ∈ s.attributes, a.key = c.key ∧ a.value.display = c.value := by
  simp only [Clause.holds, List.any_eq_true, Span.hasAttribute_iff]

theorem showing_nil : showing [] = id := by
  funext s
  have hall : (s.attributes.filter fun a =>
      ([] : List Pattern) = [] ∨ ∃ p ∈ ([] : List Pattern), p.selects a.key = true) =
        s.attributes := by
    simp
  rw [showing, hall]
  rfl

theorem showing_of_ne_nil {patterns : List Pattern} (h : patterns ≠ []) :
    showing patterns = keepMatching patterns := by
  funext s
  simp only [showing, keepMatching, h, false_or]
  congr 2
  funext a
  rw [Bool.eq_iff_iff, decide_eq_true_eq, List.any_eq_true]

theorem keepSelected_eq (patterns : List Pattern) (trace : TraceGroup) :
    keepSelected patterns trace =
      if patterns ≠ [] → ∃ s ∈ trace.spans, ∃ a ∈ s.attributes, ∃ p ∈ patterns,
          p.selects a.key = true then
        some { trace with spans := trace.spans.map (showing patterns) }
      else none := by
  by_cases hnil : patterns = []
  · rw [if_pos fun hne => absurd hnil hne, hnil, showing_nil, List.map_id]
    rfl
  · have hbare : (trace.spans.map (keepMatching patterns)).all (·.attributes.isEmpty) = true ↔
        ¬∃ s ∈ trace.spans, ∃ a ∈ s.attributes, ∃ p ∈ patterns, p.selects a.key = true := by
      simp [keepMatching, List.filter_eq_nil_iff]
    rw [keepSelected, if_neg (by simpa using hnil), showing_of_ne_nil hnil]
    by_cases hany : ∃ s ∈ trace.spans, ∃ a ∈ s.attributes, ∃ p ∈ patterns, p.selects a.key = true
    · rw [if_pos fun _ => hany]
      exact if_neg fun hall => hbare.mp hall hany
    · refine (if_pos (hbare.mpr hany)).trans (if_neg fun hall => ?_).symm
      exact hany (hall hnil)

/-- A trace is left if it is eligible, and what is left is what is shown of it. -/
theorem keep_eq (snapshot : List TraceGroup) (options : Options) (now : UInt64)
    (trace : TraceGroup) :
    keep (options.window.map (·.cutoff now)) options.clauses (options.active snapshot) trace =
      if Eligible snapshot options now trace then some (options.shown snapshot now trace)
      else none := by
  rw [keep, keepRecent_eq]
  by_cases hlive : ∃ s ∈ trace.spans, options.Live now s
  · rw [if_pos hlive]
    simp only [Option.bind_eq_bind, Option.bind_some, List.all_eq_true, holds_iff, keepSelected_eq,
      List.mem_filter, decide_eq_true_eq, and_assoc]
    simp only [eligible_iff, hlive, true_and, Options.shown]
    rw [ite_and]
  · rw [if_neg hlive, if_neg fun heligible => hlive heligible.live]
    rfl

theorem filterMap_keep (snapshot : List TraceGroup) (options : Options) (now : UInt64)
    (traces : List TraceGroup) :
    traces.filterMap
        (keep (options.window.map (·.cutoff now)) options.clauses (options.active snapshot)) =
      (traces.filter (Eligible snapshot options now ·)).map (options.shown snapshot now) := by
  induction traces with
  | nil => rfl
  | cons trace rest ih =>
    rw [List.filterMap_cons, keep_eq, ih]
    by_cases h : Eligible snapshot options now trace <;> simp [h]

/-! ## The whole -/

theorem mem_attributeKeys_iff {snapshot : List TraceGroup} {key : String} :
    key ∈ attributeKeys snapshot ↔
      ∃ trace ∈ snapshot, ∃ s ∈ trace.spans, ∃ a ∈ s.attributes, a.key = key := by
  simp only [attributeKeys, TraceGroup.attributeKeys, List.mem_flatMap, List.mem_map]

theorem any_selects_eq_false_iff {snapshot : List TraceGroup} {p : Pattern} :
    (attributeKeys snapshot).any p.selects = false ↔
      ∀ trace ∈ snapshot, ∀ s ∈ trace.spans, ∀ a ∈ s.attributes, p.selects a.key = false := by
  simp only [List.any_eq_false, mem_attributeKeys_iff, Bool.not_eq_true]
  constructor
  · intro hnone trace htrace s hs a ha
    exact hnone a.key ⟨trace, htrace, s, hs, a, ha, rfl⟩
  · rintro hnone _ ⟨trace, htrace, s, hs, a, ha, rfl⟩
    exact hnone trace htrace s hs a ha

/-- No pattern counts, if all of them select no key. -/
theorem active_eq {snapshot : List TraceGroup} (hne : snapshot ≠ []) (options : Options) :
    options.active snapshot =
      if (unmatchedPatterns snapshot options.patterns).length == options.patterns.length then []
      else options.patterns := by
  have hall : (unmatchedPatterns snapshot options.patterns).length = options.patterns.length ↔
      ∀ p ∈ options.patterns, ∀ trace ∈ snapshot, ∀ s ∈ trace.spans, ∀ a ∈ s.attributes,
        p.selects a.key = false := by
    rw [unmatchedPatterns, List.length_filter_eq_length_iff]
    refine forall₂_congr fun p _ => ?_
    rw [Bool.not_eq_true', any_selects_eq_false_iff]
  simp only [Options.active, hne, ne_eq, not_false_eq_true, true_and, ← hall, beq_iff_eq]

/-- **The traces of an answer**, if there is an answer, are those that are eligible, in the order of
the snapshot and cut down to what is shown of them: the first one for the last trace, all of them
for any, and else those with a key that the target selects; and of these no more than the limit. -/
theorem execute_traces {snapshot : List TraceGroup} {options : Options} {now : UInt64}
    {out : Outcome} (h : execute snapshot options now = .ok out) :
    let found :=
      (snapshot.filter (Eligible snapshot options now ·)).map (options.shown snapshot now)
    let wanted :=
      match options.target with
      | .last => found.take 1
      | .any => found
      | target => found.filter (target.selects ·.key.text)
    out.traces =
      match options.limit with
      | none => wanted
      | some n => wanted.take n := by
  intro found wanted
  have hwanted : options.target.choose found = wanted := by
    cases htarget : options.target <;> simp only [wanted, htarget, Target.choose]
  by_cases hne : snapshot = []
  · subst hne
    obtain rfl := Except.ok.inj h
    have hnone : wanted = [] := by
      rw [← hwanted]
      cases options.target <;> rfl
    rw [hnone]
    cases options.limit <;> simp
  · simp only [execute, List.isEmpty_iff, hne, if_false] at h
    split at h
    · cases h
    · obtain rfl := Except.ok.inj h
      simp only [← active_eq hne, filterMap_keep]
      cases options.limit <;> simp only [Option.elim, ← hwanted, found]

/-- A span with nothing but its start and texts as attributes. -/
def plainSpan (start : UInt64) (attributes : List (String × String)) : Span where
  wireTraceId := ⟨""⟩
  id := ⟨""⟩
  parent := none
  name := ""
  start := start
  finish := start
  service := ""
  attributes := attributes.map fun (key, value) => ⟨key, .string value⟩

/-- In the first trace the clause holds of a span before the window only, in the third one no span
has a key that is asked for, and the fourth one does not have the identifier. -/
theorem execute_traces_one :
    let snapshot : List TraceGroup :=
      [⟨⟨"ab01"⟩, [plainSpan 5 [("env", "prod")], plainSpan 90000000000 [("http.path", "/a")]]⟩,
        ⟨⟨"AB02"⟩, [plainSpan 5 [("http.path", "/b")],
          plainSpan 90000000000 [("env", "prod"), ("http.path", "/c"), ("http.path", "/d")],
          plainSpan 95000000000 [("env", "dev")]]⟩,
        ⟨⟨"ab03"⟩, [plainSpan 90000000000 [("env", "prod")]]⟩,
        ⟨⟨"cd04"⟩, [plainSpan 90000000000 [("env", "prod"), ("http.path", "/e")]]⟩]
    let options : Options :=
      { target := .short "ab", patterns := [⟨"http.*"⟩, ⟨"rpc"⟩], clauses := [⟨"env", "prod"⟩]
        window := some ⟨1, .minutes⟩, limit := some 2 }
    let out : Outcome :=
      { traces := [⟨⟨"AB02"⟩, [plainSpan 90000000000 [("http.path", "/c"), ("http.path", "/d")],
          plainSpan 95000000000 []]⟩]
        warning := some ⟨[⟨"rpc"⟩], false⟩ }
    execute snapshot options 100000000000 = .ok out ∧
      out.traces = (((snapshot.filter (Eligible snapshot options 100000000000 ·)).map
        (options.shown snapshot 100000000000)).filter
          (options.target.selects ·.key.text)).take 2 := by
  intro snapshot options out
  have hout : execute snapshot options 100000000000 = .ok out :=
    congrArg Except.ok (by decide : _ = out)
  exact ⟨hout, execute_traces hout⟩

end TraceWeave.Query
