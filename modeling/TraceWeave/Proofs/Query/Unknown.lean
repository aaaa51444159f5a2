import TraceWeave.Proofs.Query.Answer

/-!
# Names that occur nowhere

A query may name keys that no span of the snapshot carries. Such a name is told apart from data that
is missing: a clause with an unknown key is refused before anything is filtered, and a pattern that
selects no key is named in a warning. Both are decided by the whole snapshot, whatever else is asked
for. If no pattern selects a key, the answer is the one without patterns.

* `unknownKeys_eq`, `unmatchedPatterns_eq`: what is reported, in words of the snapshot;
* `execute_eq`: an answer as a function of what is reported;
* `execute_unknown`: when a query is refused or answered with a warning, and what is named.
-/

namespace TraceWeave.Query

/-- Some span of the snapshot carries the key. -/
def Occurs (snapshot : List TraceGroup) (key : String) : Prop :=
  ∃ trace ∈ snapshot, ∃ s ∈ trace.spans, ∃ a ∈ s.attributes, a.key = key

instance (snapshot : List TraceGroup) : DecidablePred (Occurs snapshot) := fun _ =>
  inferInstanceAs (Decidable (∃ _ ∈ snapshot, _))

/-- The pattern selects no key of the snapshot. -/
def Idle (snapshot : List TraceGroup) (p : Pattern) : Prop :=
  ∀ trace ∈ snapshot, ∀ s ∈ trace.spans, ∀ a ∈ s.attributes, p.selects a.key = false

instance (snapshot : List TraceGroup) : DecidablePred (Idle snapshot) := fun _ =>
  inferInstanceAs (Decidable (∀ _ ∈ snapshot, _))

/-- The keys of the clauses that ask for a key that does not occur. -/
def Options.unknown (options : Options) (snapshot : List TraceGroup) : List String :=
  (options.clauses.filter fun c => ¬Occurs snapshot c.key).map (·.key)

def Options.idle (options : Options) (snapshot : List TraceGroup) : List Pattern :=
  options.patterns.filter (Idle snapshot ·)

variable {snapshot : List TraceGroup}

theorem unknownKeys_eq (snapshot : List TraceGroup) (options : Options) :
    unknownKeys snapshot options.clauses = options.unknown snapshot := by
  rw [unknownKeys, Options.unknown, List.filter_map]
  congr 1
  refine List.filter_congr fun c _ => ?_
  rw [Bool.eq_iff_iff, Function.comp, Bool.not_eq_true', ← Bool.not_eq_true, List.contains_iff_mem,
    mem_attributeKeys_iff, decide_eq_true_eq]
  rfl

theorem unmatchedPatterns_eq (snapshot : List TraceGroup) (options : Options) :
    unmatchedPatterns snapshot options.patterns = options.idle snapshot := by
  refine List.filter_congr fun p _ => ?_
  rw [Bool.eq_iff_iff, Bool.not_eq_true', any_selects_eq_false_iff, decide_eq_true_eq]
  rfl

theorem active_of_idle {options : Options} (hne : snapshot ≠ [])
    (hidle : ∀ p ∈ options.patterns, Idle snapshot p) : options.active snapshot = [] :=
  if_pos ⟨hne, hidle⟩

theorem length_idle_iff {options : Options} :
    (options.idle snapshot).length = options.patterns.length ↔
      ∀ p ∈ options.patterns, Idle snapshot p := by
  simp only [Options.idle, List.length_filter_eq_length_iff, decide_eq_true_eq]

/-- The patterns count in what is left of the traces only as far as they are active, and not at all
in whether there is an answer. -/
theorem execute_eq (hne : snapshot ≠ []) (options : Options) (now : UInt64) :
    execute snapshot options now =
      if options.unknown snapshot = [] then
        let chosen := options.target.choose (snapshot.filterMap
          (keep (options.window.map (·.cutoff now)) options.clauses (options.active snapshot)))
        .ok {
          traces := options.limit.elim chosen chosen.take
          warning :=
            if options.idle snapshot = [] then none
            else some ⟨options.idle snapshot, ∀ p ∈ options.patterns, Idle snapshot p⟩
        }
      else .error (.unknownKeys (options.unknown snapshot)) := by
  have hall : ((options.idle snapshot).length == options.patterns.length) =
      decide (∀ p ∈ options.patterns, Idle snapshot p) := by
    rw [Bool.eq_iff_iff, beq_iff_eq, decide_eq_true_eq, length_idle_iff]
  rw [active_eq hne]
  simp only [execute, List.isEmpty_iff, hne, unknownKeys_eq, unmatchedPatterns_eq, hall,
    Bool.not_eq_true', List.isEmpty_eq_false_iff, if_false, ite_not]

/-! ## Refusals and warnings -/

theorem unknown_ne_nil_iff {options : Options} :
    options.unknown snapshot ≠ [] ↔ ∃ c ∈ options.clauses, ¬Occurs snapshot c.key := by
  simp [Options.unknown, List.filter_eq_nil_iff]

theorem idle_ne_nil_iff {options : Options} :
    options.idle snapshot ≠ [] ↔ ∃ p ∈ options.patterns, Idle snapshot p := by
  simp [Options.idle, List.filter_eq_nil_iff]

theorem execute_eq_error_iff {options : Options} {now : UInt64} {fault : Fault} :
    execute snapshot options now = .error fault ↔
      snapshot ≠ [] ∧ options.unknown snapshot ≠ [] ∧
        fault = .unknownKeys (options.unknown snapshot) := by
  by_cases hne : snapshot = []
  · subst hne
    simp [execute_nil]
  · rw [execute_eq hne]
    by_cases hunknown : options.unknown snapshot = []
    · simp [hunknown]
    · simp [hne, hunknown, eq_comm]

theorem warning_eq {options : Options} {now : UInt64} {out : Outcome} (hne : snapshot ≠ [])
    (h : execute snapshot options now = .ok out) :
    out.warning =
      if options.idle snapshot = [] then none
      else some ⟨options.idle snapshot, ∀ p ∈ options.patterns, Idle snapshot p⟩ := by
  rw [execute_eq hne] at h
  split at h
  · rw [← Except.ok.inj h]
  · cases h

theorem message_decide {all : Prop} [Decidable all] (unmatched : List Pattern) :
    (Warning.mk unmatched all).message =
      "Filter key(s) not found: " ++ ", ".intercalate (unmatched.map (·.text)) ++ "." ++
        if all then " Returning unfiltered traces." else "" := by
  refine congrArg (HAppend.hAppend _) ?_
  simp only [decide_eq_true_eq]

/-- If all patterns are idle, they could as well be left out. -/
theorem execute_bare {options : Options} {now : UInt64} {out : Outcome} (hne : snapshot ≠ [])
    (h : execute snapshot options now = .ok out)
    (hidle : ∀ p ∈ options.patterns, Idle snapshot p) :
    execute snapshot { options with patterns := [] } now = .ok ⟨out.traces, none⟩ := by
  -- No pattern at all is a case of patterns that are idle, so the same ones are active: none.
  have hbare : ({ options with patterns := [] } : Options).active snapshot =
      options.active snapshot := by
    rw [active_of_idle hne hidle, active_of_idle hne (List.forall_mem_nil _)]
  rw [execute_eq hne] at h ⊢
  rw [hbare]
  split at h
  · next hunknown =>
    rw [← Except.ok.inj h]
    exact if_pos hunknown
  · cases h

/-- **A name that occurs nowhere is told apart from data that is missing.** A query is refused
exactly if the snapshot has traces and some clause asks for a key that does not occur in it,
whatever else is asked for, and the refusal names the keys of these clauses. An answer comes with a
warning exactly if some pattern is idle, and the warning names these patterns. If all patterns are
idle, the traces are those of the query without patterns. Of an empty snapshot there is nothing to
be told. -/
theorem execute_unknown (snapshot : List TraceGroup) (options : Options) (now : UInt64) :
    ((∃ fault, execute snapshot options now = .error fault) ↔
        snapshot ≠ [] ∧ ∃ c ∈ options.clauses, ¬Occurs snapshot c.key) ∧
      (∀ fault, execute snapshot options now = .error fault →
        fault = .unknownKeys
            ((options.clauses.filter fun c => ¬Occurs snapshot c.key).map (·.key)) ∧
          fault.message = "Unknown --where key(s): " ++ ", ".intercalate
            ((options.clauses.filter fun c => ¬Occurs snapshot c.key).map (·.key))) ∧
      (∀ out, execute snapshot options now = .ok out → snapshot ≠ [] →
        (out.warning.isSome = true ↔ ∃ p ∈ options.patterns, Idle snapshot p) ∧
          (∀ w ∈ out.warning, w.unmatched = options.patterns.filter (Idle snapshot ·) ∧
            w.message = "Filter key(s) not found: " ++ ", ".intercalate
                ((options.patterns.filter (Idle snapshot ·)).map (·.text)) ++ "." ++
              if ∀ p ∈ options.patterns, Idle snapshot p then " Returning unfiltered traces."
              else "") ∧
          (options.patterns ≠ [] → (∀ p ∈ options.patterns, Idle snapshot p) →
            ∃ bare, execute snapshot { options with patterns := [] } now = .ok bare ∧
              out.traces = bare.traces)) ∧
      (snapshot = [] → execute snapshot options now = .ok ⟨[], none⟩) := by
  refine ⟨?refused, ?named, ?answered, ?empty⟩
  case refused =>
    simp only [execute_eq_error_iff, unknown_ne_nil_iff, exists_and_left, exists_eq, and_true]
  case named =>
    intro fault h
    obtain ⟨-, -, rfl⟩ := execute_eq_error_iff.mp h
    exact ⟨rfl, rfl⟩
  case answered =>
    intro out h hne
    have hwarning := warning_eq hne h
    refine ⟨?_, ?_, ?_⟩
    · rw [← idle_ne_nil_iff, hwarning]
      by_cases hidle : options.idle snapshot = [] <;> simp [hidle]
    · intro w hw
      rw [hwarning, Option.mem_def] at hw
      split at hw
      · cases hw
      · rw [← Option.some.inj hw]
        exact ⟨rfl, message_decide _⟩
    · exact fun _ hidle => ⟨_, execute_bare hne h hidle, rfl⟩
  case empty =>
    rintro rfl
    exact execute_nil options now

/-- The first query asks for one key that occurs and twice for one that does not, and the second
one has two idle patterns. -/
theorem execute_unknown_misspelt :
    let snapshot : List TraceGroup :=
      [⟨⟨"ab01"⟩, [plainSpan 5 [("env", "prod"), ("http.path", "/a")]]⟩,
        ⟨⟨"ab02"⟩, [plainSpan 7 [("env", "dev")]]⟩]
    let typo : Options :=
      { clauses := [⟨"evn", "prod"⟩, ⟨"env", "none"⟩, ⟨"evn", "dev"⟩]
        window := some ⟨1, .minutes⟩ }
    let rare : Options :=
      { target := .any, patterns := [⟨"rpc.*"⟩, ⟨"db"⟩], clauses := [⟨"env", "dev"⟩] }
    (∃ c ∈ typo.clauses, ¬Occurs snapshot c.key) ∧
      (∀ fault, execute snapshot typo 100000000000 = .error fault →
        fault.message = "Unknown --where key(s): evn, evn") ∧
      ∃ out, execute snapshot rare 100000000000 = .ok out ∧
        (∀ w ∈ out.warning, w.message =
          "Filter key(s) not found: rpc.*, db. Returning unfiltered traces.") ∧
        ∃ bare, execute snapshot { rare with patterns := [] } 100000000000 = .ok bare ∧
          out.traces = bare.traces := by
  intro snapshot typo rare
  obtain ⟨hrefused, hnamed, -, -⟩ := execute_unknown snapshot typo 100000000000
  have hfault : ∃ fault, execute snapshot typo 100000000000 = .error fault :=
    ⟨.unknownKeys ["evn", "evn"], rfl⟩
  obtain ⟨-, -, hanswered, -⟩ := execute_unknown snapshot rare 100000000000
  have hout : execute snapshot rare 100000000000 =
      .ok ⟨[⟨⟨"ab02"⟩, [plainSpan 7 [("env", "dev")]]⟩], some ⟨rare.patterns, true⟩⟩ := rfl
  obtain ⟨-, hwarned, hbare⟩ := hanswered _ hout (List.cons_ne_nil _ _)
  refine ⟨(hrefused.mp hfault).2, fun fault h => ?_, _, hout, fun w hw => ?_, ?_⟩
  · rw [(hnamed fault h).2]
    rfl
  · rw [(hwarned w hw).2]
    rfl
  · exact hbare (List.cons_ne_nil _ _) (by decide)

end TraceWeave.Query
