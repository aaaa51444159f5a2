import TraceWeave.Proofs.Grouping.Invariant

/-!
# Retained spans

* `Step.mem_spans`: a span that is kept after a placement was kept before, or has been placed;
* `forall_retained_run`: what holds of all spans that are placed, holds of all that are kept.
-/

namespace TraceWeave.Grouping

theorem Members.mem_spans_absorb {m moving : Members} {t : Span}
    (ht : t ∈ (m.absorb moving).spans) : t ∈ m.spans ∨ t ∈ moving.spans := by
  rcases List.mem_append.mp ht with hold | hnew
  · exact .inl hold
  · exact .inr (List.mem_filter.mp hnew).1

namespace Engine

variable {e e' : Engine} {wire : TraceId} {s : Span} {r : Report}

theorem Admitted.mem_spans (hstep : Admitted e wire s e' r) {key : TraceId} {t : Span}
    (ht : t ∈ (e'.members key).spans) : t = s ∨ ∃ k, t ∈ (e.members k).spans := by
  have hadd : ∀ {m : Members}, t ∈ (m.add e.limits s).spans → t ∈ m.spans ∨ t = s :=
    fun hmem => Members.mem_spans_keepSpan hmem
  by_cases hkey : key = r.group
  · rw [hkey, hstep.members_self] at ht
    cases hmerged : r.mergedFrom with
    | none =>
      rw [hmerged] at ht
      rcases hadd ht with hold | rfl
      · exact .inr ⟨_, hold⟩
      · exact .inl rfl
    | some src =>
      rw [hmerged] at ht
      rcases Members.mem_spans_absorb ht with hown | hmoved
      · rcases hadd hown with hold | rfl
        · exact .inr ⟨_, hold⟩
        · exact .inl rfl
      · exact .inr ⟨src, hmoved⟩
  · rw [hstep.members_other key hkey] at ht
    split at ht
    · cases ht
    · exact .inr ⟨key, ht⟩

theorem Step.mem_spans (hstep : Step e wire s e' r) {key : TraceId} {t : Span}
    (ht : t ∈ (e'.members key).spans) : t = s ∨ ∃ k, t ∈ (e.members k).spans := by
  cases hstep with
  | unplaced hstep =>
    rw [hstep.engine_eq] at ht
    exact .inr ⟨key, ht⟩
  | followed hstep =>
    by_cases hkey : key = r.group
    · rw [hkey, hstep.members_self] at ht
      rcases Members.mem_spans_keepSpan ht with hold | rfl
      · exact .inr ⟨_, hold⟩
      · exact .inl rfl
    · rw [hstep.members_other key hkey] at ht
      exact .inr ⟨key, ht⟩
  | repeated hstep =>
    rw [hstep.members_eq] at ht
    exact .inr ⟨key, ht⟩
  | admitted hstep => exact hstep.mem_spans ht

/-- What holds of all spans that are placed, holds of all that are kept. -/
theorem forall_retained_run {P : Span → Prop} (groups spans : Nat)
    (steps : List (TraceId × Span)) (hplaced : ∀ step ∈ steps, P step.2) :
    ∀ key, ∀ s ∈ (((new groups spans).run steps).1.members key).spans, P s := by
  have hkept := run_induction
    (P := fun e => e.Sound ∧ ∀ key, ∀ s ∈ (e.members key).spans, P s) (Q := fun step => P step.2)
    (fun e wire s ⟨hsound, hall⟩ hs => by
      have hstep := step_place hsound wire s
      refine ⟨hstep.sound hsound, ?_⟩
      intro key t ht
      rcases hstep.mem_spans ht with rfl | ⟨k, hold⟩
      · exact hs
      · exact hall k t hold)
    ⟨sound_new groups spans, by simp [new, members, Recency.find?]⟩ steps hplaced
  exact hkept.2

end Engine

end TraceWeave.Grouping
