import TraceWeave.Proofs.Query.Listing

/-!
# What tokens ask for

A token is looked at without the blanks around it and without regard to case. If nothing is left,
the other options decide; two words are targets of their own; everything else has to be an
identifier of 8 or 32 digits, and is refused where a list is asked for. A target that has been
resolved can be written down: its display form asks for the same target again.

* `Asks`: which tokens ask for which targets;
* `resolve_eq`: resolving by cases on the trimmed token;
* `resolve_eq_ok_iff`, `resolve_eq_error_iff`: what is resolved, and what is refused and why;
* `resolve_exact`: all of it together, and that targets are stable.
-/

namespace TraceWeave.Query.Target

open Text

/-- The text consists of so many hexadecimal digits, and not of zeros alone. -/
structure IsDigits (n : Nat) (text : String) : Prop where
  length_eq : text.toList.length = n
  all_hex : ∀ c ∈ text.toList, isHexDigit c = true
  some_ne : ∃ c ∈ text.toList, c ≠ '0'

/-- What is meant without a token. -/
def implied (list window limit : Bool) : Target :=
  if list || window || limit then any else last

/-- The token asks for the target. -/
inductive Asks (list window limit : Bool) : Option String → Target → Prop
  | missing : Asks list window limit none (implied list window limit)
  | blank {token : String} (h : trimmed token = "") :
    Asks list window limit (some token) (implied list window limit)
  | last {token : String} (h : lowered (trimmed token) = "last") :
    Asks list window limit (some token) .last
  | any {token : String} (h : lowered (trimmed token) = "any") :
    Asks list window limit (some token) .any
  | short {token : String} (hlist : list = false) (h : IsDigits 8 (trimmed token)) :
    Asks list window limit (some token) (.short (lowered (trimmed token)))
  | exact {token : String} (hlist : list = false) (h : IsDigits 32 (trimmed token)) :
    Asks list window limit (some token) (.exact (lowered (trimmed token)))

/-- Why a text is refused that is neither a word nor an identifier. -/
def refusal (list : Bool) (text : String) : Fault :=
  if list then .targetWithList
  else if text.toList.length = 8 then .malformedShortId
  else if text.toList.length = 32 then .malformedId
  else .idLength

variable {token : String} {list window limit : Bool} {target : Target}

/-! ## Digits -/

theorem isDigits_iff {n : Nat} {text : String} :
    IsDigits n text ↔ text.toList.length = n ∧ isId text.toList = true := by
  rw [isId_iff]
  exact ⟨fun h => ⟨h.length_eq, h.all_hex, h.some_ne⟩, fun h => ⟨h.1, h.2.1, h.2.2⟩⟩

instance (n : Nat) (text : String) : Decidable (IsDigits n text) :=
  decidable_of_iff _ isDigits_iff.symm

theorem IsDigits.lowered {n : Nat} {text : String} (h : IsDigits n text) :
    IsDigits n (lowered text) := by
  rw [isDigits_iff] at h ⊢
  rw [Text.lowered, String.toList_ofList, isId_lower, lower, List.length_map]
  exact h

/-- Digits for an identifier are longer than the words for targets. -/
theorem IsDigits.ne_word {n : Nat} {text : String} (h : IsDigits n text) (hn : 8 ≤ n)
    {word : String} (hword : word.toList.length < 8) : Text.lowered text ≠ word := by
  rintro rfl
  rw [length_lowered, h.length_eq] at hword
  omega

theorem IsDigits.ne_empty {n : Nat} {text : String} (h : IsDigits n text) (hn : 8 ≤ n) :
    text ≠ "" := by
  rintro rfl
  have hlength : 0 = n := h.length_eq
  omega

theorem IsDigits.trimmed_eq {n : Nat} {text : String} (h : IsDigits n text) :
    trimmed text = text := by
  rw [trimmed, trim_eq_self fun c hc => isBlank_hexDigit (h.all_hex c hc), String.ofList_toList]

theorem ne_empty_of_lowered {text word : String} (h : lowered text = word)
    (hword : word ≠ lowered "") : text ≠ "" := by
  rintro rfl
  exact hword h.symm

/-! ## Resolving -/

theorem resolve_eq (token : String) (list window limit : Bool) :
    resolve (some token) list window limit =
      if trimmed token = "" then .ok (implied list window limit)
      else if lowered (trimmed token) = "last" then .ok last
      else if lowered (trimmed token) = "any" then .ok any
      else if list = false ∧ IsDigits 8 (trimmed token) then .ok (short (lowered (trimmed token)))
      else if list = false ∧ IsDigits 32 (trimmed token) then
        .ok (exact (lowered (trimmed token)))
      else .error (refusal list (trimmed token)) := by
  have hempty : (lower (trim token.toList)).isEmpty = true ↔ trimmed token = "" := by
    simp [trimmed, lower, ← String.toList_inj]
  have hword : ∀ word : String, lower (trim token.toList) = word.toList ↔
      lowered (trimmed token) = word := fun word => by rw [lowered_eq_iff, toList_trimmed]
  have hlength : (lower (trim token.toList)).length = (trimmed token).toList.length := by
    rw [lower, List.length_map, toList_trimmed]
  simp only [resolve, Option.getD_some, hempty, hword, hlength, isId_lower, isDigits_iff, refusal,
    implied, lowered, toList_trimmed]
  refine if_congr Iff.rfl rfl (if_congr Iff.rfl rfl (if_congr Iff.rfl rfl ?_))
  cases list with
  | true => simp
  | false =>
    by_cases hid : isId (trim token.toList) = true
    · by_cases h8 : (trim token.toList).length = 8
      · simp [h8, hid]
      · by_cases h32 : (trim token.toList).length = 32 <;> simp [h8, h32, hid]
    · simp only [hid, Bool.false_eq_true, if_false, and_false]
      split_ifs <;> rfl

theorem resolve_none (list window limit : Bool) :
    resolve none list window limit = .ok (implied list window limit) := rfl

theorem resolve_eq_ok_iff {token : Option String} :
    resolve token list window limit = .ok target ↔ Asks list window limit token target := by
  cases token with
  | none =>
    rw [resolve_none]
    constructor
    · intro h
      rw [← Except.ok.inj h]
      exact .missing
    · rintro ⟨⟩
      rfl
  | some token =>
    rw [resolve_eq]
    constructor
    · intro h
      split at h
      · next hblank =>
        rw [← Except.ok.inj h]
        exact .blank hblank
      · split at h
        · next hlast =>
          rw [← Except.ok.inj h]
          exact .last hlast
        · split at h
          · next hany =>
            rw [← Except.ok.inj h]
            exact .any hany
          · split at h
            · next hshort =>
              rw [← Except.ok.inj h]
              exact .short hshort.1 hshort.2
            · split at h
              · next hexact =>
                rw [← Except.ok.inj h]
                exact .exact hexact.1 hexact.2
              · cases h
    · intro h
      cases h with
      | blank h => rw [if_pos h]
      | last h => rw [if_neg (ne_empty_of_lowered h (by decide)), if_pos h]
      | any h =>
        rw [if_neg (ne_empty_of_lowered h (by decide)), if_neg (by rw [h]; decide), if_pos h]
      | short hlist h =>
        rw [if_neg (h.ne_empty (by decide)), if_neg (h.ne_word (by decide) (by decide)),
          if_neg (h.ne_word (by decide) (by decide)), if_pos ⟨hlist, h⟩]
      | exact hlist h =>
        have hother : ¬(list = false ∧ IsDigits 8 (trimmed token)) := fun ⟨_, h8⟩ =>
          absurd (h.length_eq.symm.trans h8.length_eq) (by decide)
        rw [if_neg (h.ne_empty (by decide)), if_neg (h.ne_word (by decide) (by decide)),
          if_neg (h.ne_word (by decide) (by decide)), if_neg hother, if_pos ⟨hlist, h⟩]

theorem eq_refusal_of_error {token : Option String} {fault : Fault}
    (h : resolve token list window limit = .error fault) :
    fault = refusal list (trimmed (token.getD "")) := by
  cases token with
  | none =>
    rw [resolve_none] at h
    cases h
  | some token =>
    rw [resolve_eq] at h
    split_ifs at h
    exact (Except.error.inj h).symm

/-- A refusal is given exactly where nothing is asked for, and says what is wrong with the token. -/
theorem resolve_eq_error_iff {token : Option String} {fault : Fault} :
    resolve token list window limit = .error fault ↔
      (¬∃ target, Asks list window limit token target) ∧
        fault = refusal list (trimmed (token.getD "")) := by
  constructor
  · intro h
    refine ⟨?_, eq_refusal_of_error h⟩
    rintro ⟨target, htarget⟩
    rw [resolve_eq_ok_iff.mpr htarget] at h
    cases h
  · rintro ⟨hnone, rfl⟩
    cases h : resolve token list window limit with
    | ok target => exact absurd ⟨target, resolve_eq_ok_iff.mp h⟩ hnone
    | error fault => rw [eq_refusal_of_error h]

/-! ## Stability -/

/-- Digits that have been brought to lower case are read as they are. -/
theorem IsDigits.reread {n : Nat} {text : String} (h : IsDigits n text) :
    IsDigits n (trimmed (Text.lowered text)) ∧
      Text.lowered (trimmed (Text.lowered text)) = Text.lowered text := by
  rw [h.lowered.trimmed_eq]
  refine ⟨h.lowered, ?_⟩
  rw [Text.lowered, Text.lowered, String.toList_ofList, lower_lower]

theorem Asks.shown {token : Option String} (h : Asks list window limit token target)
    (window' limit' : Bool) : Asks false window' limit' (some target.display) target := by
  have hlast : Asks false window' limit' (some Target.last.display) .last := .last (by decide)
  have hany : Asks false window' limit' (some Target.any.display) .any := .any (by decide)
  have himplied : Asks false window' limit' (some (implied list window limit).display)
      (implied list window limit) := by
    rw [implied]
    split
    · exact hany
    · exact hlast
  cases h with
  | missing => exact himplied
  | blank => exact himplied
  | last => exact hlast
  | any => exact hany
  | @short token _ h =>
    obtain ⟨hdigits, heq⟩ := h.reread
    have hasks : Asks false window' limit' (some (lowered (trimmed token))) _ := .short rfl hdigits
    rwa [heq] at hasks
  | @exact token _ h =>
    obtain ⟨hdigits, heq⟩ := h.reread
    have hasks : Asks false window' limit' (some (lowered (trimmed token))) _ := .exact rfl hdigits
    rwa [heq] at hasks

/-- **What a token asks for.** A token resolves to a target exactly if it asks for it, and to a
refusal exactly if it asks for nothing. The display form of a target that has been resolved resolves
to the same target, whatever else is asked for but a list. -/
theorem resolve_exact (token : Option String) (list window limit : Bool) :
    (∀ target, resolve token list window limit = .ok target ↔
      Asks list window limit token target) ∧
    (∀ fault, resolve token list window limit = .error fault ↔
      (¬∃ target, Asks list window limit token target) ∧
        fault = refusal list (trimmed (token.getD ""))) ∧
    ∀ target, resolve token list window limit = .ok target →
      ∀ window' limit', resolve (some target.display) false window' limit' = .ok target :=
  ⟨fun _ => resolve_eq_ok_iff, fun _ => resolve_eq_error_iff, fun _ h window' limit' =>
    resolve_eq_ok_iff.mpr ((resolve_eq_ok_iff.mp h).shown window' limit')⟩

/-- A token with blanks of two kinds around it, and eight digits that are refused as they are all
zeros; where a list is asked for, the same token is refused. -/
theorem resolve_exact_capitals :
    resolve (some "\u00a00AF76519 ") false true false = .ok (short "0af76519") ∧
      resolve (some "0af76519") false false true = .ok (short "0af76519") ∧
      resolve (some " 00000000") false false false = .error .malformedShortId ∧
      resolve (some "\u00a00AF76519 ") true true false = .error .targetWithList := by
  have hdigits : IsDigits 8 (trimmed "\u00a00AF76519 ") := by decide
  obtain ⟨hok, -, hstable⟩ := resolve_exact (some "\u00a00AF76519 ") false true false
  have hshort : resolve (some "\u00a00AF76519 ") false true false = .ok (short "0af76519") :=
    (hok _).mpr (.short rfl hdigits)
  have hzeros : ¬∃ target, Asks false false false (some " 00000000") target := by
    rintro ⟨target, - | h | h | h | ⟨-, h⟩ | ⟨-, h⟩⟩ <;> exact absurd h (by decide)
  have hlist : ¬∃ target, Asks true true false (some "\u00a00AF76519 ") target := by
    rintro ⟨target, - | h | h | h | ⟨h, -⟩ | ⟨h, -⟩⟩ <;> exact absurd h (by decide)
  exact ⟨hshort, hstable _ hshort false true,
    ((resolve_exact _ false false false).2.1 _).mpr ⟨hzeros, by decide⟩,
    ((resolve_exact _ true true false).2.1 _).mpr ⟨hlist, by decide⟩⟩

end TraceWeave.Query.Target
