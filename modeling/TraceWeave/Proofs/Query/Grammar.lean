import TraceWeave.Proofs.Query.Shown
import Mathlib.Data.List.Forall2

/-!
# The grammar of clauses

A clause is spelled with a single equals sign. Before it stands the key, with nothing but spaces and
tabs around it, and what stands behind it is the value, with any blanks around it. The two kinds of
white space do not get into each other's way: a key has no character of either kind, and a value
that has been trimmed is not trimmed again when it is read back.

* `Clause.Spells`: the grammar;
* `Clause.readKey?_eq_some_iff`, `Clause.read?_eq_some_iff`: what is read is what is spelled;
* `Clause.readAll_eq`: a list of texts, with those named that are no clauses;
* `Clause.readAll_spelled`: all of it together.
-/

namespace TraceWeave.Query.Clause

open Text

/-- The text spells the clause. -/
def Spells (text : String) (c : Clause) : Prop :=
  text.toList.count '=' = 1 ∧ ∃ before after right,
    text.toList = before ++ c.key.toList ++ after ++ '=' :: right ∧
      (∀ x ∈ before ++ after, x = ' ' ∨ x = '\t') ∧ IsKey c.key ∧
      c.value.toList = trim right ∧ c.value ≠ ""

/-- The text spells some clause. -/
def Spelled (text : String) : Prop :=
  ∃ c, Spells text c

/-! ## Keys -/

theorem isGap_iff {x : Char} : isGap x = true ↔ x = ' ' ∨ x = '\t' := by
  simp [isGap]

theorem isKey_iff {key : String} :
    IsKey key ↔ key.toList ≠ [] ∧ ∀ x ∈ key.toList, isKeyChar x = true := by
  constructor
  · intro h
    exact ⟨by simpa using h.ne_empty, h.isKeyChar⟩
  · rintro ⟨hne, hchars⟩
    refine ⟨by simpa using hne, fun x hx => ?_⟩
    have hchar := hchars x hx
    simpa [isKeyChar, or_assoc] using hchar

/-- Gaps end a key. -/
theorem takeWhile_key_gaps {key after : List Char} (hkey : ∀ x ∈ key, isKeyChar x = true)
    (hgaps : ∀ x ∈ after, isGap x = true) :
    (key ++ after).takeWhile isKeyChar = key ∧ (key ++ after).dropWhile isKeyChar = after := by
  rw [List.takeWhile_append_of_pos hkey, List.dropWhile_append_of_pos hkey]
  cases after with
  | nil => simp
  | cons x after =>
    have hx : ¬isKeyChar x = true := by
      intro hchar
      have hgap := hgaps x List.mem_cons_self
      rw [isGap_keyChar hchar] at hgap
      cases hgap
    rw [List.takeWhile_cons_of_neg hx, List.dropWhile_cons_of_neg hx, List.append_nil]
    exact ⟨rfl, rfl⟩

theorem readKey?_eq_some_iff {left key : List Char} :
    readKey? left = some key ↔
      ∃ before after, left = before ++ key ++ after ∧
        (∀ x ∈ before ++ after, isGap x = true) ∧ key ≠ [] ∧ ∀ x ∈ key, isKeyChar x = true := by
  constructor
  · intro h
    rw [readKey?] at h
    split at h
    · next hread =>
      obtain rfl := Option.some.inj h
      simp only [Bool.and_eq_true, Bool.not_eq_true', List.isEmpty_eq_false_iff] at hread
      refine ⟨left.takeWhile isGap, (left.dropWhile isGap).dropWhile isKeyChar, ?_, ?_, hread.1, ?_⟩
      · rw [List.append_assoc, List.takeWhile_append_dropWhile, List.takeWhile_append_dropWhile]
      · rw [List.forall_mem_append]
        exact ⟨List.all_eq_true.mp List.all_takeWhile, List.all_eq_true.mp hread.2⟩
      · exact List.all_eq_true.mp List.all_takeWhile
    · cases h
  · rintro ⟨before, after, rfl, hgaps, hne, hchars⟩
    rw [List.forall_mem_append] at hgaps
    obtain ⟨htake, hdrop⟩ := takeWhile_key_gaps hchars hgaps.2
    have hfront : (before ++ key ++ after).dropWhile isGap = key ++ after := by
      rw [List.append_assoc, List.dropWhile_append_of_pos hgaps.1]
      obtain ⟨x, key, rfl⟩ := List.exists_cons_of_ne_nil hne
      exact List.dropWhile_cons_of_neg (by simp [isGap_keyChar (hchars x List.mem_cons_self)])
    simp only [readKey?, hfront, htake, hdrop, List.all_eq_true.mpr hgaps.2, Bool.and_true,
      Bool.not_eq_true', List.isEmpty_eq_false_iff]
    exact if_pos hne

/-! ## Clauses -/

theorem not_mem_of_count {left right : List Char} (h : (left ++ '=' :: right).count '=' = 1) :
    '=' ∉ left ∧ '=' ∉ right := by
  rw [List.count_append, List.count_cons_self] at h
  exact ⟨List.count_eq_zero.mp (by omega), List.count_eq_zero.mp (by omega)⟩

theorem read?_of_pieces {text : String} {left right : List Char}
    (h : pieces '=' text.toList = [left, right]) :
    read? text = (readKey? left).bind fun key =>
      if trim right = [] then none else some ⟨String.ofList key, String.ofList (trim right)⟩ := by
  simp [read?, h]

theorem spells_of_read? {text : String} {c : Clause} (h : read? text = some c) : Spells text c := by
  obtain ⟨left, right, hpieces⟩ : ∃ left right, pieces '=' text.toList = [left, right] := by
    rw [read?] at h
    split at h
    · next left right hpieces => exact ⟨left, right, hpieces⟩
    · cases h
  rw [read?_of_pieces hpieces] at h
  obtain ⟨key, hkey, hvalue⟩ := Option.bind_eq_some_iff.mp h
  obtain ⟨htext, hleft, hright⟩ := pieces_eq_pair_iff.mp hpieces
  obtain ⟨before, after, rfl, hgaps, hne, hchars⟩ := readKey?_eq_some_iff.mp hkey
  split at hvalue
  · cases hvalue
  · next hfilled =>
    obtain rfl := Option.some.inj hvalue
    refine ⟨?_, before, after, right, ?_, fun x hx => isGap_iff.mp (hgaps x hx), ?_, ?_, ?_⟩
    · rw [htext, List.count_append, List.count_cons_self, List.count_eq_zero.mpr hleft,
        List.count_eq_zero.mpr hright]
    · rw [htext, String.toList_ofList]
    · rw [isKey_iff, String.toList_ofList]
      exact ⟨hne, hchars⟩
    · exact String.toList_ofList
    · simpa using hfilled

/-- **What is read is what is spelled.** -/
theorem read?_eq_some_iff {text : String} {c : Clause} : read? text = some c ↔ Spells text c := by
  refine ⟨spells_of_read?, ?_⟩
  rintro ⟨hcount, before, after, right, htext, hgaps, hkey, hvalue, hfilled⟩
  obtain ⟨hne, hchars⟩ := isKey_iff.mp hkey
  have hpieces : pieces '=' text.toList = [before ++ c.key.toList ++ after, right] :=
    pieces_eq_pair_iff.mpr ⟨htext, not_mem_of_count (htext ▸ hcount)⟩
  have hread : readKey? (before ++ c.key.toList ++ after) = some c.key.toList :=
    readKey?_eq_some_iff.mpr
      ⟨before, after, rfl, fun x hx => isGap_iff.mpr (hgaps x hx), hne, hchars⟩
  have htrim : trim right ≠ [] := by
    rw [← hvalue]
    simpa using hfilled
  rw [read?_of_pieces hpieces, hread, Option.bind_some, if_neg htrim, ← hvalue,
    String.ofList_toList, String.ofList_toList]

theorem spelled_iff {text : String} : Spelled text ↔ (read? text).isSome = true := by
  rw [Option.isSome_iff_exists]
  exact exists_congr fun _ => read?_eq_some_iff.symm

instance : DecidablePred Spelled := fun _ =>
  decidable_of_iff _ spelled_iff.symm

/-! ## Lists of clauses -/

theorem readAll_eq (texts : List String) :
    readAll texts =
      if ∀ text ∈ texts, Spelled text then .ok (texts.filterMap read?)
      else .error (.malformedClauses (texts.filter (¬Spelled ·))) := by
  have hmalformed : (texts.filter fun text => (read? text).isNone) =
      texts.filter (¬Spelled ·) := by
    refine List.filter_congr fun text _ => ?_
    rw [Bool.eq_iff_iff, decide_eq_true_eq, spelled_iff]
    simp
  rw [readAll, hmalformed]
  simp

/-- A value that has been read is trimmed and has no equals sign, so it reads as it is. -/
theorem Spells.verbatim {c : Clause} {text : String} (h : Spells text c) : Verbatim c.value := by
  obtain ⟨hcount, before, after, right, htext, -, -, hvalue, hfilled⟩ := h
  refine ⟨hfilled, ?_, fun hmem => ?_⟩
  · rw [trimmed, hvalue, trim_trim, ← hvalue, String.ofList_toList]
  · rw [hvalue] at hmem
    exact (not_mem_of_count (htext ▸ hcount)).2 ((trim_sublist right).subset hmem)

theorem Spells.display {c : Clause} {text : String} (h : Spells text c) :
    readAll [c.display] = .ok [c] := by
  have hverbatim := h.verbatim
  obtain ⟨-, -, -, -, -, -, hkey, -⟩ := h
  rw [readAll_eq_ok_iff, List.map_singleton, List.map_singleton, read?_display hkey hverbatim]

/-- **Clauses are read by their grammar.** A list of texts reads exactly if each of them spells a
clause, and what is read are the clauses that they spell, in their order. Each clause reads back
from the form in which it is shown. A list with other texts is refused, and the refusal names these
texts as they are, in their order. -/
theorem readAll_spelled (texts : List String) :
    (∀ clauses, readAll texts = .ok clauses ↔ List.Forall₂ Spells texts clauses) ∧
      ((∃ clauses, readAll texts = .ok clauses) ↔ ∀ text ∈ texts, Spelled text) ∧
      (∀ clauses, readAll texts = .ok clauses →
        ∀ c ∈ clauses, readAll [c.display] = .ok [c]) ∧
      ∀ fault, readAll texts = .error fault →
        fault = .malformedClauses (texts.filter (¬Spelled ·)) ∧
          fault.message = "Invalid --where filter(s): " ++
            ", ".intercalate (texts.filter (¬Spelled ·)) ++ ". Use key=value." := by
  have hread : ∀ clauses, readAll texts = .ok clauses ↔ List.Forall₂ Spells texts clauses := by
    intro clauses
    rw [readAll_eq_ok_iff, ← List.forall₂_eq_eq_eq, List.forall₂_map_left_iff,
      List.forall₂_map_right_iff]
    simp only [read?_eq_some_iff]
  refine ⟨hread, ?_, fun clauses h c hc => ?_, fun fault h => ?_⟩
  · rw [readAll_eq]
    split
    · next hall => exact iff_of_true ⟨_, rfl⟩ hall
    · next hsome => exact iff_of_false (by simp) hsome
  · rw [readAll_eq] at h
    split at h
    · rw [← Except.ok.inj h, List.mem_filterMap] at hc
      obtain ⟨text, -, hread⟩ := hc
      exact (spells_of_read? hread).display
    · cases h
  · rw [readAll_eq] at h
    split at h
    · cases h
    · rw [← Except.error.inj h]
      exact ⟨rfl, rfl⟩

/-- A key between a tab and a space with a value before a no-break space, and texts that fail in
different ways: no value, two equals signs, a blank within a key, a letter that keys may not have, a
no-break space before the key. -/
theorem readAll_spelled_mixed :
    let good := ["\tguid:x-request-id = a b\u00a0", "url.path=/"]
    let bad := ["k=\u3000", "a=b=c", "ok=1", "bad key=1", "é=1", "\u00a0k=1"]
    let clauses : List Clause := [⟨"guid:x-request-id", "a b"⟩, ⟨"url.path", "/"⟩]
    (readAll good = .ok clauses ∧ List.Forall₂ Spells good clauses ∧
        readAll ["guid:x-request-id=a b"] = .ok [⟨"guid:x-request-id", "a b"⟩]) ∧
      (¬∃ clauses, readAll bad = .ok clauses) ∧
        ∃ fault, readAll bad = .error fault ∧
          fault.message = "Invalid --where filter(s): " ++
            "k=\u3000, a=b=c, bad key=1, é=1, \u00a0k=1. Use key=value." := by
  intro good bad clauses
  have hgood : readAll good = .ok clauses := by decide
  obtain ⟨hread, -, hshown, -⟩ := readAll_spelled good
  have hfault : readAll bad = .error (.malformedClauses
      ["k=\u3000", "a=b=c", "bad key=1", "é=1", "\u00a0k=1"]) := by decide
  obtain ⟨-, hall, -, hnamed⟩ := readAll_spelled bad
  refine ⟨⟨hgood, (hread clauses).mp hgood, hshown clauses hgood _ List.mem_cons_self⟩, ?_, _,
    hfault, ?_⟩
  · rw [hall]
    decide
  · rw [(hnamed _ hfault).2]
    decide

end TraceWeave.Query.Clause
