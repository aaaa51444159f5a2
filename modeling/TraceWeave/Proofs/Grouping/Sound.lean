import TraceWeave.Grouping.Placement
import Mathlib.Data.List.Nodup
import Mathlib.Data.List.Perm.Basic

/-!
# Sound engines

The engine keeps a recency list of groups and two indices that name groups. `Engine.Sound` is what
ties the three together: an index names only groups that are there, and a group that a recorded
span is said to belong to has seen that span. Every step is described for sound engines only,
since an index entry that names no group would bring a forgotten group back to life.

Groups are looked at through `Engine.members`, which gives the empty members to a key without a
group, and through the list of keys.
-/

namespace TraceWeave.Grouping

/-! ## Recency lists -/

namespace Recency

variable {κ α : Type}

theorem keys_dropLast (r : Recency κ α) : keys r.dropLast = r.keys.dropLast := by
  simp [keys, List.map_dropLast]

theorem getLast?_keys (r : Recency κ α) : r.keys.getLast? = r.getLast?.map (·.1) := by
  simp [keys, List.getLast?_map]

theorem length_keys (r : Recency κ α) : r.keys.length = r.length := by
  simp [keys]

variable [DecidableEq κ]

theorem find?_eq_none_iff {r : Recency κ α} {key : κ} : r.find? key = none ↔ key ∉ r.keys := by
  rw [← find?_isSome_iff, Bool.not_eq_true, Option.isSome_eq_false_iff, Option.isNone_iff_eq_none]

theorem find?_append (front back : Recency κ α) (key : κ) :
    find? (front ++ back) key = (front.find? key).or (back.find? key) := by
  induction front with
  | nil => rfl
  | cons entry rest ih =>
    obtain ⟨k, a⟩ := entry
    simp only [List.cons_append, find?]
    split
    · rfl
    · exact ih

theorem mem_of_find? {r : Recency κ α} {key : κ} {value : α} (h : r.find? key = some value) :
    (key, value) ∈ r := by
  induction r with
  | nil => simp [find?] at h
  | cons entry rest ih =>
    obtain ⟨k, a⟩ := entry
    rw [find?] at h
    split at h
    · next heq =>
      obtain rfl := Option.some.inj h
      exact heq ▸ List.mem_cons_self
    · exact List.mem_cons_of_mem _ (ih h)

theorem find?_of_mem {r : Recency κ α} (hnodup : r.keys.Nodup) {key : κ} {value : α}
    (h : (key, value) ∈ r) : r.find? key = some value := by
  have hkey : key ∈ r.keys := List.mem_map.mpr ⟨_, h, rfl⟩
  obtain ⟨found, hfound⟩ := Option.isSome_iff_exists.mp (find?_isSome_iff.mpr hkey)
  have heq := List.inj_on_of_nodup_map hnodup (mem_of_find? hfound) h rfl
  rw [hfound, (Prod.mk.inj heq).2]

/-- The last entry is the only one of its key. -/
theorem find?_dropLast {r : Recency κ α} (hnodup : r.keys.Nodup) {last : κ} {value : α}
    (hlast : r.getLast? = some (last, value)) (key : κ) :
    find? r.dropLast key = if last = key then none else r.find? key := by
  obtain ⟨front, rfl⟩ := List.getLast?_eq_some_iff.mp hlast
  rw [List.dropLast_concat]
  split
  · next heq =>
    subst heq
    apply find?_eq_none_iff.mpr
    simp only [keys, List.map_append, List.map_cons, List.map_nil] at hnodup
    intro hmem
    exact (List.disjoint_of_nodup_append hnodup) hmem (List.mem_singleton.mpr rfl)
  · next hne => simp [find?_append, find?, hne]

end Recency

/-! ## Groups -/

/-- No assigned identifier is kept twice, and what is kept has been seen. -/
structure Members.Coherent (m : Members) : Prop where
  ids_nodup : ((m.spans.map (·.id)).filter (!·.isUnassigned)).Nodup
  id_seen : ∀ s ∈ m.spans, s.id.isUnassigned = false → s.id ∈ m.seen
  seen_assigned : ∀ id ∈ m.seen, id.isUnassigned = false

/-- Members as a group has them between two placements, when some span is kept. -/
structure Members.Sound (m : Members) : Prop extends m.Coherent where
  spans_ne_nil : m.spans ≠ []

theorem Members.coherent_empty : Members.Coherent {} := by
  constructor <;> simp

namespace Engine

theorem members_of_not_mem {e : Engine} {key : TraceId} (h : key ∉ e.groups.keys) :
    e.members key = {} := by
  simp [members, Recency.find?_eq_none_iff.mpr h]

theorem members_of_find? {e : Engine} {key : TraceId} {m : Members}
    (h : e.groups.find? key = some m) : e.members key = m := by
  simp [members, h]

theorem find?_of_mem {e : Engine} {key : TraceId} (h : key ∈ e.groups.keys) :
    e.groups.find? key = some (e.members key) := by
  obtain ⟨m, hm⟩ := Option.isSome_iff_exists.mp (Recency.find?_isSome_iff.mpr h)
  rw [hm, members_of_find? hm]

theorem mem_keys_of_mem_seen {e : Engine} {key : TraceId} {id : SpanId}
    (h : id ∈ (e.members key).seen) : key ∈ e.groups.keys := by
  by_contra hnot
  rw [members_of_not_mem hnot] at h
  simp at h

theorem containsGroup_iff {e : Engine} {key : TraceId} :
    e.containsGroup key = true ↔ key ∈ e.groups.keys :=
  Recency.find?_isSome_iff

/-- The indices agree with the groups. -/
structure Sound (e : Engine) : Prop where
  keys_nodup : e.groups.keys.Nodup
  length_le : e.groups.length ≤ e.limits.groups
  members_sound : ∀ key ∈ e.groups.keys, (e.members key).Sound
  home_seen : ∀ {id key}, e.homes.find? id = some key → id ∈ (e.members key).seen
  awaited_live : ∀ {id key}, e.awaited.find? id = some key → key ∈ e.groups.keys

namespace Sound

variable {e : Engine}

theorem home_live (h : e.Sound) {id : SpanId} {key : TraceId}
    (hhome : e.homes.find? id = some key) : key ∈ e.groups.keys :=
  mem_keys_of_mem_seen (h.home_seen hhome)

theorem coherent (h : e.Sound) (key : TraceId) : (e.members key).Coherent := by
  by_cases hlive : key ∈ e.groups.keys
  · exact (h.members_sound key hlive).toCoherent
  · rw [members_of_not_mem hlive]
    exact Members.coherent_empty

theorem seen_assigned (h : e.Sound) {id : SpanId} {key : TraceId}
    (hseen : id ∈ (e.members key).seen) : id.isUnassigned = false :=
  (h.coherent key).seen_assigned id hseen

theorem home_assigned (h : e.Sound) {id : SpanId} {key : TraceId}
    (hhome : e.homes.find? id = some key) : id.isUnassigned = false :=
  h.seen_assigned (h.home_seen hhome)

end Sound

theorem sound_new (groups spans : Nat) : (new groups spans).Sound where
  keys_nodup := List.nodup_nil
  length_le := Nat.zero_le _
  members_sound := by simp [new, Recency.keys]
  home_seen := by simp [new]
  awaited_live := by simp [new]

end Engine

end TraceWeave.Grouping
