/-!
# Recency lists

Keyed values in the order in which they were touched, the latest first. A list that is built by
`push` of new keys, `touch`, `update` and `erase` holds each key once.

* `keys_touch`, `keys_update`, `keys_erase`: the keys after each operation;
* `find?_touch`, `find?_update`, `find?_erase`: what is found after each operation.
-/

namespace TraceWeave.Grouping

/-- Keyed values, the latest touched first. -/
abbrev Recency (κ α : Type) := List (κ × α)

namespace Recency

variable {κ α : Type}

def keys (r : Recency κ α) : List κ :=
  r.map (·.1)

/-- With a key and its value in front. -/
def push (r : Recency κ α) (key : κ) (value : α) : Recency κ α :=
  (key, value) :: r

@[simp] theorem keys_push (r : Recency κ α) (key : κ) (value : α) :
    (r.push key value).keys = key :: r.keys := rfl

variable [DecidableEq κ]

/-- The value of a key. -/
def find? (r : Recency κ α) (key : κ) : Option α :=
  match r with
  | [] => none
  | (k, a) :: rest => if k = key then some a else find? rest key

/-- Without a key. -/
def erase (r : Recency κ α) (key : κ) : Recency κ α :=
  r.filter (·.1 ≠ key)

/-- With a key, if it is there, moved to the front. -/
def touch (r : Recency κ α) (key : κ) : Recency κ α :=
  match r.find? key with
  | some value => push (r.erase key) key value
  | none => r

/-- With the value of a key replaced in its place. -/
def update (r : Recency κ α) (key : κ) (f : α → α) : Recency κ α :=
  r.map fun (k, a) => if k = key then (k, f a) else (k, a)

/-! ## Keys -/

theorem find?_isSome_iff {r : Recency κ α} {key : κ} :
    (r.find? key).isSome = true ↔ key ∈ r.keys := by
  induction r with
  | nil => simp [find?, keys]
  | cons entry rest ih =>
    obtain ⟨k, a⟩ := entry
    simp only [find?, keys, List.map_cons, List.mem_cons] at ih ⊢
    by_cases h : k = key
    · simp [h]
    · have hne : ¬key = k := fun heq => h heq.symm
      simp [h, hne, ih]

theorem keys_erase (r : Recency κ α) (key : κ) :
    (r.erase key).keys = r.keys.filter (· ≠ key) := by
  simp only [keys, erase, List.filter_map]
  rfl

@[simp] theorem keys_update (r : Recency κ α) (key : κ) (f : α → α) :
    (r.update key f).keys = r.keys := by
  simp only [keys, update, List.map_map]
  apply List.map_congr_left
  intro entry _
  simp only [Function.comp]
  split <;> rfl

theorem keys_touch (r : Recency κ α) (key : κ) :
    (r.touch key).keys = if key ∈ r.keys then key :: r.keys.filter (· ≠ key) else r.keys := by
  have hmem : (r.find? key).isSome = true ↔ key ∈ r.keys := find?_isSome_iff
  unfold touch
  split
  · next value h => simp [← hmem, h, keys_erase]
  · next h => simp [← hmem, h]

/-! ## What is found -/

@[simp] theorem find?_push (r : Recency κ α) (pushed key : κ) (value : α) :
    (r.push pushed value).find? key = if pushed = key then some value else r.find? key := rfl

theorem find?_erase (r : Recency κ α) (erased key : κ) :
    (r.erase erased).find? key = if erased = key then none else r.find? key := by
  induction r with
  | nil => simp [erase, find?]
  | cons entry rest ih =>
    obtain ⟨k, a⟩ := entry
    simp only [erase] at ih
    by_cases hk : k = erased
    · subst hk
      by_cases hkey : k = key
      · simp_all [erase]
      · simp_all [erase, find?]
    · by_cases hkey : k = key
      · subst hkey
        have : ¬erased = k := fun h => hk h.symm
        simp [erase, find?, hk, this]
      · simp only [erase, ne_eq, decide_not, List.filter_cons, hk, decide_false, Bool.not_false,
          if_true, find?, hkey, if_false]
        simpa using ih

theorem find?_touch (r : Recency κ α) (touched key : κ) :
    (r.touch touched).find? key = r.find? key := by
  unfold touch
  split
  · next value h =>
    rw [find?_push, find?_erase]
    by_cases hkey : touched = key
    · simp [← hkey, h]
    · simp [hkey]
  · rfl

theorem find?_update (r : Recency κ α) (updated key : κ) (f : α → α) :
    (r.update updated f).find? key =
      if updated = key then (r.find? key).map f else r.find? key := by
  induction r with
  | nil => simp [update, find?]
  | cons entry rest ih =>
    obtain ⟨k, a⟩ := entry
    simp only [update] at ih
    by_cases hk : k = updated
    · subst hk
      by_cases hkey : k = key
      · simp [update, find?, hkey]
      · simp only [hkey, if_false] at ih
        simp [update, find?, hkey, ih]
    · by_cases hkey : k = key
      · subst hkey
        have : ¬updated = k := fun h => hk h.symm
        simp [update, find?, hk, this]
      · simp [update, find?, hk, hkey, ih]

end Recency

end TraceWeave.Grouping
