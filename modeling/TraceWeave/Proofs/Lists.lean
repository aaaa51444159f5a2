/-!
# Lists that are read item by item, and lists in another order

* `isSome_mapM`, `mapM_eq_some`, `mapM_eq_self_iff`: when all items can be read, and as what;
* `map_of_mapM`: what reading keeps of each item, it keeps of the list;
* `filter_key`, `lookup_eq_some_iff_mem`: an item is alone with its key;
* `Reordered`: another order that keeps the items of each class as they stood;
* `Reordered.eq_of_sorted`: of all such orders only one is sorted;
* `reordered_mergeSort`: sorting keeps the items of each class in order.
-/

namespace TraceWeave

/-! ## Items read one by one -/

section Items

variable {α β γ : Type} {f : α → Option β}

theorem isSome_mapM {l : List α} :
    (l.mapM f).isSome = true ↔ ∀ a ∈ l, (f a).isSome = true := by
  induction l with
  | nil => simp
  | cons a l ih =>
    rw [List.mapM_cons, List.forall_mem_cons, ← ih]
    cases f a <;> cases l.mapM f <;> simp

theorem mapM_eq_some {g : α → β} {l : List α} (h : ∀ a ∈ l, f a = some (g a)) :
    l.mapM f = some (l.map g) := by
  induction l with
  | nil => rfl
  | cons a l ih =>
    rw [List.forall_mem_cons] at h
    rw [List.mapM_cons, h.1, ih h.2]
    rfl

theorem mapM_eq_self_iff {f : α → Option α} {l : List α} :
    l.mapM f = some l ↔ ∀ a ∈ l, f a = some a := by
  constructor
  · intro h
    induction l with
    | nil => simp
    | cons a l ih =>
      rw [List.mapM_cons] at h
      obtain ⟨b, hb, h⟩ := Option.bind_eq_some_iff.mp h
      obtain ⟨rest, hrest, h⟩ := Option.bind_eq_some_iff.mp h
      obtain ⟨rfl, rfl⟩ := List.cons.inj (Option.some.inj h)
      rw [List.forall_mem_cons]
      exact ⟨hb, ih hrest⟩
  · intro h
    rw [mapM_eq_some (g := id) h, List.map_id]

theorem map_of_mapM {p : α → γ} {q : β → γ} (hkeep : ∀ a b, f a = some b → q b = p a)
    {l : List α} {l' : List β} (h : l.mapM f = some l') : l'.map q = l.map p := by
  induction l generalizing l' with
  | nil =>
    obtain rfl := Option.some.inj h
    rfl
  | cons a l ih =>
    rw [List.mapM_cons] at h
    obtain ⟨b, hb, h⟩ := Option.bind_eq_some_iff.mp h
    obtain ⟨rest, hrest, h⟩ := Option.bind_eq_some_iff.mp h
    obtain rfl := Option.some.inj h
    rw [List.map_cons, List.map_cons, hkeep a b hb, ih hrest]

theorem filter_key [DecidableEq α] {members : List (α × β)} (hnodup : (members.map (·.1)).Nodup)
    {m : α × β} (hm : m ∈ members) : members.filter (·.1 = m.1) = [m] := by
  induction members with
  | nil => cases hm
  | cons first rest ih =>
    rw [List.map_cons, List.nodup_cons] at hnodup
    rcases List.mem_cons.mp hm with rfl | hrest
    · have hnone : rest.filter (·.1 = m.1) = [] := by
        rw [List.filter_eq_nil_iff]
        intro other hother heq
        exact hnodup.1 (List.mem_map.mpr ⟨other, hother, of_decide_eq_true heq⟩)
      rw [List.filter_cons_of_pos (by simp), hnone]
    · have hne : first.1 ≠ m.1 := fun heq => hnodup.1 (heq ▸ List.mem_map_of_mem hrest)
      rw [List.filter_cons_of_neg (by simpa using hne), ih hnodup.2 hrest]

theorem lookup_cons_ite [BEq α] [LawfulBEq α] [DecidableEq α] (a k : α) (v : β)
    (members : List (α × β)) :
    ((k, v) :: members).lookup a = if a = k then some v else members.lookup a := by
  rw [List.lookup_cons]
  by_cases h : a = k
  · rw [if_pos h, beq_iff_eq.mpr h]
  · rw [if_neg h, beq_eq_false_iff_ne.mpr h]

theorem lookup_eq_some_iff_mem [BEq α] [LawfulBEq α] {members : List (α × β)} {m : α × β}
    (hnodup : (members.map (·.1)).Nodup) : members.lookup m.1 = some m.2 ↔ m ∈ members := by
  constructor
  · intro h
    obtain ⟨before, after, rfl, -⟩ := List.lookup_eq_some_iff.mp h
    exact List.mem_append_right _ List.mem_cons_self
  · intro hm
    obtain ⟨before, after, rfl⟩ := List.append_of_mem hm
    refine List.lookup_eq_some_iff.mpr ⟨before, after, rfl, fun other hother => ?_⟩
    rw [List.map_append, List.map_cons] at hnodup
    have hne : other.1 ≠ m.1 := (List.nodup_append.mp hnodup).2.2 _
      (List.mem_map_of_mem hother) _ List.mem_cons_self
    simpa using hne.symm

end Items

/-! ## Items of a class in order -/

theorem pairwise_mergeSort {α β : Type} [LE β] [DecidableLE β] [Std.IsLinearOrder β]
    (classOf : α → β) (l : List α) :
    (l.mergeSort fun a b => classOf a ≤ classOf b).Pairwise (classOf · ≤ classOf ·) := by
  have hsorted : (l.mergeSort fun a b => decide (classOf a ≤ classOf b)).Pairwise
      fun a b => decide (classOf a ≤ classOf b) = true := by
    apply List.pairwise_mergeSort
    · simpa using fun a b c => Std.le_trans
    · simpa using fun a b => Std.le_total
  simpa using hsorted

section Classes

variable {α β : Type} [DecidableEq β] {classOf : α → β} {l l' l'' : List α}

/-- The same items in another order, but those of one class as they stood. -/
structure Reordered (classOf : α → β) (l l' : List α) : Prop where
  perm : l.Perm l'
  filter_eq : ∀ c, l.filter (classOf · = c) = l'.filter (classOf · = c)

theorem reordered_iff : Reordered classOf l l' ↔ l.Perm l' ∧
    ∀ a ∈ l, l.filter (classOf · = classOf a) = l'.filter (classOf · = classOf a) := by
  constructor
  · exact fun h => ⟨h.perm, fun a _ => h.filter_eq (classOf a)⟩
  · rintro ⟨hperm, hfilter⟩
    refine ⟨hperm, fun c => ?_⟩
    by_cases hc : ∃ a ∈ l, classOf a = c
    · obtain ⟨a, ha, rfl⟩ := hc
      exact hfilter a ha
    · have hnone : l.filter (classOf · = c) = [] := by
        rw [List.filter_eq_nil_iff]
        intro a ha hclass
        exact hc ⟨a, ha, of_decide_eq_true hclass⟩
      have hnone' := hperm.filter (classOf · = c)
      rw [hnone] at hnone' ⊢
      exact hnone'.nil_eq

instance [DecidableEq α] : Decidable (Reordered classOf l l') :=
  decidable_of_iff _ reordered_iff.symm

namespace Reordered

theorem symm (h : Reordered classOf l l') : Reordered classOf l' l :=
  ⟨h.perm.symm, fun c => (h.filter_eq c).symm⟩

theorem trans (h : Reordered classOf l l') (h' : Reordered classOf l' l'') :
    Reordered classOf l l'' :=
  ⟨h.perm.trans h'.perm, fun c => (h.filter_eq c).trans (h'.filter_eq c)⟩

theorem tail {a : α} (h : Reordered classOf (a :: l) (a :: l')) : Reordered classOf l l' := by
  refine ⟨h.perm.cons_inv, fun c => ?_⟩
  have hc := h.filter_eq c
  rw [List.filter_cons, List.filter_cons] at hc
  split at hc
  · exact List.tail_eq_of_cons_eq hc
  · exact hc

variable [LE β] [Std.IsLinearOrder β]

/-- Of all orders that keep each class in order, only one is sorted by class. -/
theorem eq_of_sorted (h : Reordered classOf l l') (hl : l.Pairwise (classOf · ≤ classOf ·))
    (hl' : l'.Pairwise (classOf · ≤ classOf ·)) : l = l' := by
  induction l generalizing l' with
  | nil => exact h.perm.nil_eq
  | cons a l ih =>
    cases l' with
    | nil => exact h.perm.symm.nil_eq.symm
    | cons b l' =>
      have hle : ∀ {x y : α} {ys : List α}, (y :: ys).Pairwise (classOf · ≤ classOf ·) →
          x ∈ y :: ys → classOf y ≤ classOf x := by
        intro x y ys hsorted hx
        rcases List.mem_cons.mp hx with rfl | hx
        · exact Std.le_refl _
        · exact List.rel_of_pairwise_cons hsorted hx
      -- Either head is the least of all items, so both are the first item of the same class.
      have hclass : classOf a = classOf b := Std.le_antisymm
        (hle hl (h.perm.mem_iff.mpr List.mem_cons_self))
        (hle hl' (h.perm.mem_iff.mp List.mem_cons_self))
      have hfirst := h.filter_eq (classOf a)
      rw [List.filter_cons_of_pos (by simp), List.filter_cons_of_pos (by simp [hclass])] at hfirst
      obtain rfl : a = b := (List.cons.inj hfirst).1
      rw [ih h.tail hl.of_cons hl'.of_cons]

end Reordered

variable [LE β] [DecidableLE β] [Std.IsLinearOrder β]

/-- Sorting by class keeps the items of each class in order. -/
theorem reordered_mergeSort (classOf : α → β) (l : List α) :
    Reordered classOf l (l.mergeSort fun a b => classOf a ≤ classOf b) := by
  have hperm := (List.mergeSort_perm l fun a b => classOf a ≤ classOf b).symm
  refine ⟨hperm, fun c => ?_⟩
  have hequal : (l.filter (classOf · = c)).Pairwise
      fun a b => decide (classOf a ≤ classOf b) = true := by
    refine List.pairwise_of_forall_mem_list fun a ha b hb => ?_
    have ha := of_decide_eq_true (List.mem_filter.mp ha).2
    have hb := of_decide_eq_true (List.mem_filter.mp hb).2
    rw [ha, hb]
    exact decide_eq_true (Std.le_refl _)
  have hsub : (l.filter (classOf · = c)).Sublist
      (l.mergeSort fun a b => classOf a ≤ classOf b) :=
    List.sublist_mergeSort (by simpa using fun a b c => Std.le_trans)
      (by simpa using fun a b => Std.le_total) hequal List.filter_sublist
  have hfilter := hsub.filter (classOf · = c)
  rw [List.filter_filter] at hfilter
  simp only [Bool.and_self] at hfilter
  exact hfilter.eq_of_length (hperm.filter _).length_eq

theorem Reordered.mergeSort_eq (h : Reordered classOf l l') :
    (l.mergeSort fun a b => classOf a ≤ classOf b) =
      l'.mergeSort fun a b => classOf a ≤ classOf b :=
  (((reordered_mergeSort classOf l).symm.trans h).trans
    (reordered_mergeSort classOf l')).eq_of_sorted
    (pairwise_mergeSort classOf l) (pairwise_mergeSort classOf l')

end Classes

end TraceWeave
