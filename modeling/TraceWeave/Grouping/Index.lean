/-!
# Indices

A finite map as a list of entries whose keys differ. What an index holds is said by `find?`; each
operation has one lemma about it, and the order of the entries never matters.

* `find?_insert`, `find?_insertNew`, `find?_insertAll`: what is found after an addition;
* `find?_erase`, `find?_keep`: what is found after a removal;
* `find?_mapValues`: what is found after all values were replaced.
-/

namespace TraceWeave.Grouping

/-- A finite map. -/
structure Index (κ α : Type) where
  entries : List (κ × α)
  keys_nodup : (entries.map (·.1)).Nodup
deriving DecidableEq, Repr

namespace Index

variable {κ α : Type} [DecidableEq κ]

def empty : Index κ α := ⟨[], List.nodup_nil⟩

/-- The value of a key. -/
def find? (index : Index κ α) (key : κ) : Option α :=
  (index.entries.find? (·.1 = key)).map (·.2)

/-- The entries that satisfy a condition. -/
def keep (index : Index κ α) (p : κ → α → Bool) : Index κ α :=
  ⟨index.entries.filter fun (k, a) => p k a,
    (List.Sublist.map _ List.filter_sublist).nodup index.keys_nodup⟩

/-- Without the entry of a key. -/
def erase (index : Index κ α) (key : κ) : Index κ α :=
  index.keep fun k _ => k ≠ key

/-- With a value for a key, in place of the one it had. -/
def insert (index : Index κ α) (key : κ) (value : α) : Index κ α :=
  ⟨(key, value) :: (index.erase key).entries, by
    simp only [List.map_cons, List.nodup_cons]
    refine ⟨?_, (index.erase key).keys_nodup⟩
    simp [erase, keep]⟩

/-- With a value for a key, unless it has one. -/
def insertNew (index : Index κ α) (key : κ) (value : α) : Index κ α :=
  match index.find? key with
  | some _ => index
  | none => index.insert key value

/-- With one value for many keys. -/
def insertAll (index : Index κ α) (keys : List κ) (value : α) : Index κ α :=
  keys.foldl (fun index key => index.insert key value) index

/-- With every value replaced. -/
def mapValues (index : Index κ α) (f : α → α) : Index κ α :=
  ⟨index.entries.map fun (k, a) => (k, f a), by
    have : (index.entries.map fun (k, a) => (k, f a)).map (·.1) = index.entries.map (·.1) := by
      simp
    rw [this]
    exact index.keys_nodup⟩

/-! ## What is found -/

@[simp] theorem find?_empty (key : κ) : (empty : Index κ α).find? key = none := rfl

theorem find?_eq_some_iff {index : Index κ α} {key : κ} {value : α} :
    index.find? key = some value ↔ (key, value) ∈ index.entries := by
  obtain ⟨entries, nodup⟩ := index
  simp only [find?]
  induction entries with
  | nil => simp
  | cons entry rest ih =>
    obtain ⟨k, a⟩ := entry
    simp only [List.map_cons, List.nodup_cons] at nodup
    by_cases h : k = key
    · subst h
      have hnot : ∀ b, (k, b) ∉ rest := fun b hb => nodup.1 (List.mem_map.2 ⟨_, hb, rfl⟩)
      simp [hnot, eq_comm]
    · have hne : (key, value) ≠ (k, a) := fun heq => h (congrArg Prod.fst heq).symm
      simp [h, hne, ih nodup.2]

theorem find?_keep (index : Index κ α) (p : κ → α → Bool) (key : κ) :
    (index.keep p).find? key = (index.find? key).filter (p key) := by
  apply Option.ext
  intro value
  rw [find?_eq_some_iff, Option.filter_eq_some_iff, find?_eq_some_iff]
  simp [keep]

@[simp] theorem find?_erase (index : Index κ α) (erased key : κ) :
    (index.erase erased).find? key = if key = erased then none else index.find? key := by
  rw [erase, find?_keep]
  by_cases h : key = erased
  · subst h
    cases index.find? key <;> simp
  · cases index.find? key <;> simp [h]

@[simp] theorem find?_insert (index : Index κ α) (inserted key : κ) (value : α) :
    (index.insert inserted value).find? key =
      if key = inserted then some value else index.find? key := by
  by_cases h : key = inserted
  · subst h
    simp [insert, find?]
  · have hne : ¬inserted = key := fun heq => h heq.symm
    have herase := find?_erase index inserted key
    simp only [h, if_false] at herase ⊢
    rw [← herase]
    simp [insert, find?, hne]

@[simp] theorem find?_insertNew (index : Index κ α) (inserted key : κ) (value : α) :
    (index.insertNew inserted value).find? key =
      if key = inserted then some ((index.find? inserted).getD value) else index.find? key := by
  unfold insertNew
  split
  · next old hold =>
    by_cases h : key = inserted
    · subst h
      simp [hold]
    · simp [h]
  · next hnone => simp [hnone]

@[simp] theorem find?_insertAll (index : Index κ α) (keys : List κ) (key : κ) (value : α) :
    (index.insertAll keys value).find? key =
      if key ∈ keys then some value else index.find? key := by
  induction keys generalizing index with
  | nil => simp [insertAll]
  | cons k rest ih =>
    have hstep : index.insertAll (k :: rest) value = (index.insert k value).insertAll rest value :=
      rfl
    rw [hstep, ih]
    by_cases hrest : key ∈ rest
    · simp [hrest]
    · by_cases hk : key = k
      · subst hk
        simp [hrest]
      · simp [hrest, hk]

@[simp] theorem find?_mapValues (index : Index κ α) (f : α → α) (key : κ) :
    (index.mapValues f).find? key = (index.find? key).map f := by
  apply Option.ext
  intro value
  rw [find?_eq_some_iff, Option.map_eq_some_iff]
  simp only [mapValues, List.mem_map, Prod.mk.injEq, find?_eq_some_iff]
  constructor
  · rintro ⟨⟨k, a⟩, hmem, rfl, rfl⟩
    exact ⟨a, hmem, rfl⟩
  · rintro ⟨a, hmem, rfl⟩
    exact ⟨(key, a), hmem, rfl, rfl⟩

end Index

end TraceWeave.Grouping
