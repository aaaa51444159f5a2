import TraceWeave.Proofs.Lists
import TraceWeave.Proofs.Text.Octets
import TraceWeave.View.Attributes
import Mathlib.Data.List.Induction
import Mathlib.Data.List.Nodup
import Mathlib.Data.List.Perm.Basic

/-!
# The attributes shown of a span

What is shown of the attributes of a span is fixed by four conditions: which keys are shown, that
each is shown once, which value stands with a key, and which of two keys comes first. They are
stated here without the steps that collect the attributes and move some of them, and they leave no
choice: `shown` is the only arrangement that meets them.

* `lookup_collect`, `sorted_collect`: what has been collected, in terms of the last attribute with a
  key;
* `shown_eq`: which entries are in front, and which are left;
* `Seen`: the keys that are shown, in terms of the name of the service;
* `LastWith`: the attribute whose value is shown;
* `Before`: the order of keys, the leading ones as listed and all others by their octets;
* `Displays`, `displays_shown`: the conditions, and that they are met;
* `shown_reordered`: that the order of attributes with different keys does not matter;
* `shown_eq_iff`: that nothing else meets them.
-/

namespace TraceWeave.View

/-- The name of the service says that it is a proxy: one of two words stands in it, in letters of
either case. -/
def NamesProxy (service : String) : Prop :=
  "inbound".toList <:+: (Text.lowered service).toList ∨
    "outbound".toList <:+: (Text.lowered service).toList

/-- The key is to be seen on spans of the service. -/
def Seen (verbose : Bool) (service key : String) : Prop :=
  verbose = true ∨ key ≠ hiddenKey ∧ (¬NamesProxy service ∨ key ∈ proxySummary)

/-- The last attribute with the key. -/
def LastWith (s : Span) (key : String) (a : Attribute) : Prop :=
  a.key = key ∧ ∃ before after, s.attributes = before ++ a :: after ∧ ∀ b ∈ after, b.key ≠ key

/-- Of two keys, this one comes first. -/
inductive Before (a b : String) : Prop
  | leading (ha : a ∈ leadingKeys) (hb : b ∈ leadingKeys)
      (h : leadingKeys.idxOf a < leadingKeys.idxOf b)
  | mixed (ha : a ∈ leadingKeys) (hb : b ∉ leadingKeys)
  | others (ha : a ∉ leadingKeys) (hb : b ∉ leadingKeys) (h : Text.octets a < Text.octets b)

/-- The entries show the attributes of a span. -/
structure Displays (verbose : Bool) (s : Span) (entries : List (String × String)) : Prop where
  mem_iff : ∀ key, key ∈ entries.map (·.1) ↔
    (∃ a ∈ s.attributes, a.key = key) ∧ Seen verbose s.service key
  nodup : (entries.map (·.1)).Nodup
  value_eq : ∀ entry ∈ entries, ∃ a, LastWith s entry.1 a ∧ entry.2 = a.value.display
  ordered : (entries.map (·.1)).Pairwise Before

variable {verbose : Bool} {s : Span} {key : String} {entries : List (String × String)}

/-! ## Keys -/

theorem isProxy_iff {service : String} : isProxy service = true ↔ NamesProxy service := by
  have hinfix : ∀ word : String, Text.occursIn word.toList (Text.lower service.toList) = true ↔
      word.toList <:+: (Text.lowered service).toList := by
    intro word
    rw [Text.occursIn_iff, Text.lowered, String.toList_ofList, List.IsInfix]
    simp only [eq_comm]
  rw [isProxy, Bool.or_eq_true, hinfix, hinfix, NamesProxy]

theorem visible_iff {service : String} :
    visible verbose service key = true ↔ Seen verbose service key := by
  rw [visible, Seen, ← isProxy_iff]
  simp

theorem leadingKeys_nodup : leadingKeys.Nodup := by decide

/-! ## Values -/

/-- The last value of a key. -/
def lastValue (s : Span) (key : String) : String :=
  ((s.attributes.reverse.find? (·.key == key)).map (·.value.display)).getD ""

theorem find?_reverse_eq_some_iff {a : Attribute} :
    s.attributes.reverse.find? (·.key == key) = some a ↔ LastWith s key a := by
  rw [List.find?_eq_some_iff_append, LastWith, beq_iff_eq]
  refine and_congr Iff.rfl ⟨?_, ?_⟩
  · rintro ⟨after, before, hsplit, hafter⟩
    refine ⟨before.reverse, after.reverse, ?_, ?_⟩
    · rw [← List.reverse_reverse s.attributes, hsplit]
      simp
    · intro b hb
      simpa using hafter b (List.mem_reverse.mp hb)
  · rintro ⟨before, after, hsplit, hafter⟩
    refine ⟨after.reverse, before.reverse, by simp [hsplit], ?_⟩
    intro b hb
    simpa using hafter b (List.mem_reverse.mp hb)

theorem LastWith.lastValue_eq {a : Attribute} (h : LastWith s key a) :
    lastValue s key = a.value.display := by
  rw [lastValue, find?_reverse_eq_some_iff.mpr h]
  rfl

theorem lastWith_iff_getLast? {a : Attribute} :
    LastWith s key a ↔ (s.attributes.filter (·.key = key)).getLast? = some a := by
  rw [← find?_reverse_eq_some_iff, List.getLast?_filter]
  rfl

theorem LastWith.reordered {t : Span} {a : Attribute} (h : LastWith s key a)
    (hattributes : Reordered (·.key) s.attributes t.attributes) : LastWith t key a := by
  rw [lastWith_iff_getLast?] at h ⊢
  rw [← hattributes.filter_eq, h]

theorem exists_lastWith (h : ∃ a ∈ s.attributes, a.key = key) : ∃ a, LastWith s key a := by
  obtain ⟨a, ha, hkey⟩ := h
  have hsome : (s.attributes.reverse.find? (·.key == key)).isSome = true := by
    rw [List.find?_isSome]
    exact ⟨a, List.mem_reverse.mpr ha, beq_iff_eq.mpr hkey⟩
  obtain ⟨last, hlast⟩ := Option.isSome_iff_exists.mp hsome
  exact ⟨last, find?_reverse_eq_some_iff.mp hlast⟩

/-! ## Collecting -/

theorem lookup_setEntry (k value : String) (entries : List (String × String)) :
    (setEntry k value entries).lookup key =
      if key = k then some value else entries.lookup key := by
  induction entries with
  | nil => rw [setEntry, lookup_cons_ite]
  | cons entry rest ih =>
    obtain ⟨first, v⟩ := entry
    rw [setEntry]
    split
    · rw [lookup_cons_ite]
    · split
      · next heq =>
        subst heq
        rw [lookup_cons_ite, lookup_cons_ite]
        split <;> rfl
      · next hne =>
        rw [lookup_cons_ite, lookup_cons_ite, ih]
        by_cases hkey : key = k
        · rw [if_pos hkey, if_pos hkey, if_neg (hkey ▸ hne)]
        · rw [if_neg hkey, if_neg hkey]

theorem mem_setEntry {k value : String} {entry : String × String}
    (h : entry ∈ setEntry k value entries) : entry = (k, value) ∨ entry ∈ entries := by
  induction entries with
  | nil => exact .inl (List.mem_singleton.mp h)
  | cons first rest ih =>
    rw [setEntry] at h
    split at h
    · exact List.mem_cons.mp h
    · split at h
      · exact (List.mem_cons.mp h).imp_right (List.mem_cons_of_mem _)
      · rcases List.mem_cons.mp h with rfl | h
        · exact .inr List.mem_cons_self
        · exact (ih h).imp_right (List.mem_cons_of_mem _)

theorem sorted_setEntry (k value : String) (h : entries.Pairwise (·.1 < ·.1)) :
    (setEntry k value entries).Pairwise (·.1 < ·.1) := by
  induction entries with
  | nil => exact List.pairwise_singleton _ _
  | cons first rest ih =>
    obtain ⟨hfirst, hrest⟩ := List.pairwise_cons.mp h
    rw [setEntry]
    split
    · next hlt =>
      refine List.pairwise_cons.mpr ⟨fun entry hentry => ?_, h⟩
      rcases List.mem_cons.mp hentry with rfl | hentry
      · exact hlt
      · exact hlt.trans (hfirst entry hentry)
    · next hle =>
      split
      · next heq => exact List.pairwise_cons.mpr ⟨heq ▸ hfirst, hrest⟩
      · next hne =>
        refine List.pairwise_cons.mpr ⟨fun entry hentry => ?_, ih hrest⟩
        rcases mem_setEntry hentry with rfl | hentry
        · exact lt_of_le_of_ne (not_lt.mp hle) (Ne.symm hne)
        · exact hfirst entry hentry

variable {wanted : String → Bool} {attributes : List Attribute}

theorem collect_concat (a : Attribute) :
    collect wanted (attributes ++ [a]) =
      if wanted a.key then setEntry a.key a.value.display (collect wanted attributes)
      else collect wanted attributes := by
  rw [collect, List.foldl_append]
  rfl

theorem sorted_collect (wanted : String → Bool) (attributes : List Attribute) :
    (collect wanted attributes).Pairwise (·.1 < ·.1) := by
  induction attributes using List.reverseRecOn with
  | nil => exact .nil
  | append_singleton attributes a ih =>
    rw [collect_concat]
    split
    · exact sorted_setEntry _ _ ih
    · exact ih

/-- What has been collected for a key is the last value of it. -/
theorem lookup_collect (wanted : String → Bool) (attributes : List Attribute) (key : String) :
    (collect wanted attributes).lookup key =
      if wanted key then (attributes.reverse.find? (·.key == key)).map (·.value.display)
      else none := by
  induction attributes using List.reverseRecOn with
  | nil => simp [collect]
  | append_singleton attributes a ih =>
    rw [collect_concat, List.reverse_append, List.reverse_singleton, List.singleton_append,
      List.find?_cons]
    by_cases hkey : a.key = key
    · subst hkey
      by_cases hwanted : wanted a.key
      · simp [hwanted, lookup_setEntry]
      · simp [hwanted, ih]
    · have hother : (if wanted a.key then
          setEntry a.key a.value.display (collect wanted attributes)
          else collect wanted attributes).lookup key = (collect wanted attributes).lookup key := by
        split
        · rw [lookup_setEntry, if_neg (Ne.symm hkey)]
        · rfl
      rw [hother, ih, beq_eq_false_iff_ne.mpr hkey]

/-! ## Order -/

theorem Before.asymm {a b : String} (h : Before a b) : ¬Before b a := by
  intro h'
  cases h with
  | leading ha hb h =>
    cases h' with
    | leading _ _ h' => exact Nat.lt_asymm h h'
    | mixed _ hn => exact hn ha
    | others hn => exact hn hb
  | mixed ha hb =>
    cases h' with
    | leading hb' => exact hb hb'
    | mixed hb' => exact hb hb'
    | others _ hn => exact hn ha
  | others ha hb h =>
    cases h' with
    | leading hb' => exact hb hb'
    | mixed hb' => exact hb hb'
    | others _ _ h' => exact List.lt_asymm h h'

theorem pairwise_idxOf {l : List String} (h : l.Nodup) :
    l.Pairwise fun a b => l.idxOf a < l.idxOf b := by
  rw [List.pairwise_iff_getElem]
  intro i j hi hj hij
  rwa [h.idxOf_getElem, h.idxOf_getElem]

/-! ## The leading keys in front -/

theorem moveEntry_eq (placed left : List (String × String)) (k : String) :
    moveEntry (placed, left) k =
      (placed ++ ((left.lookup k).map (k, ·)).toList, left.filter (·.1 != k)) := by
  cases hlookup : left.lookup k with
  | some value => simp [moveEntry, hlookup]
  | none =>
    have hleft : left.filter (·.1 != k) = left := by
      rw [List.filter_eq_self]
      intro entry hentry
      exact bne_comm.trans (List.lookup_eq_none_iff.mp hlookup entry hentry)
    simp [moveEntry, hlookup, hleft]

theorem lookup_filter_ne {k : String} (h : key ≠ k) (entries : List (String × String)) :
    (entries.filter (·.1 != k)).lookup key = entries.lookup key := by
  induction entries with
  | nil => rfl
  | cons entry rest ih =>
    obtain ⟨first, v⟩ := entry
    rw [lookup_cons_ite]
    by_cases hfirst : first = k
    · rw [List.filter_cons_of_neg (by simpa using hfirst), ih, if_neg (hfirst ▸ h)]
    · rw [List.filter_cons_of_pos (by simpa using hfirst), lookup_cons_ite, ih]

theorem foldl_moveEntry {keys : List String} (hnodup : keys.Nodup)
    (placed left : List (String × String)) :
    keys.foldl moveEntry (placed, left) =
      (placed ++ keys.filterMap fun key => (left.lookup key).map (key, ·),
        left.filter (·.1 ∉ keys)) := by
  induction keys generalizing placed left with
  | nil => simp
  | cons k keys ih =>
    obtain ⟨hk, hkeys⟩ := List.nodup_cons.mp hnodup
    have hlookup : ∀ key ∈ keys, (left.filter (·.1 != k)).lookup key = left.lookup key :=
      fun key hkey => lookup_filter_ne (ne_of_mem_of_not_mem hkey hk) left
    have hmoved : (keys.filterMap fun key => ((left.filter (·.1 != k)).lookup key).map (key, ·)) =
        keys.filterMap fun key => (left.lookup key).map (key, ·) :=
      List.filterMap_congr fun key hkey => by rw [hlookup key hkey]
    rw [List.foldl_cons, moveEntry_eq, ih hkeys, hmoved, List.filter_filter]
    refine Prod.ext ?_ (List.filter_congr fun entry _ => ?_)
    · rw [List.filterMap_cons]
      cases left.lookup k <;> simp
    · by_cases hentry : entry.1 = k <;> simp [hentry, hk]

/-- The leading keys that have been collected are in front, and what is left is as it was
collected. -/
theorem shown_eq (verbose : Bool) (s : Span) :
    shown verbose s =
      (leadingKeys.filterMap fun key =>
        ((collect (visible verbose s.service) s.attributes).lookup key).map (key, ·)) ++
      (collect (visible verbose s.service) s.attributes).filter (·.1 ∉ leadingKeys) := by
  rw [shown, foldl_moveEntry leadingKeys_nodup, List.nil_append]

/-! ## The attributes shown -/

theorem mem_shown_iff {entry : String × String} :
    entry ∈ shown verbose s ↔
      (collect (visible verbose s.service) s.attributes).lookup entry.1 = some entry.2 := by
  have hnodup : ((collect (visible verbose s.service) s.attributes).map (·.1)).Nodup :=
    List.pairwise_map.mpr ((sorted_collect _ _).imp fun h => ne_of_lt h)
  rw [shown_eq, List.mem_append, List.mem_filterMap, List.mem_filter,
    ← lookup_eq_some_iff_mem hnodup]
  by_cases hleading : entry.1 ∈ leadingKeys
  · simp only [hleading, not_true, decide_false, Bool.false_eq_true, and_false, or_false]
    constructor
    · rintro ⟨key, -, hentry⟩
      obtain ⟨value, hvalue, rfl⟩ := Option.map_eq_some_iff.mp hentry
      exact hvalue
    · intro h
      exact ⟨entry.1, hleading, by rw [h]; rfl⟩
  · simp only [hleading, not_false_eq_true, decide_true, and_true, or_iff_right_iff_imp]
    rintro ⟨key, hkey, hentry⟩
    obtain ⟨value, -, rfl⟩ := Option.map_eq_some_iff.mp hentry
    exact absurd hkey hleading

theorem lookup_collect_eq_some_iff {value : String} :
    (collect (visible verbose s.service) s.attributes).lookup key = some value ↔
      Seen verbose s.service key ∧ ∃ a, LastWith s key a ∧ value = a.value.display := by
  rw [lookup_collect, ← visible_iff]
  by_cases hvisible : visible verbose s.service key
  · rw [if_pos hvisible, Option.map_eq_some_iff, and_iff_right hvisible]
    exact exists_congr fun a => and_congr find?_reverse_eq_some_iff eq_comm
  · simp [hvisible]

theorem map_fst_filterMap_lookup (keys : List String) (entries : List (String × String)) :
    (keys.filterMap fun key => (entries.lookup key).map (key, ·)).map (·.1) =
      keys.filter fun key => (entries.lookup key).isSome := by
  induction keys with
  | nil => rfl
  | cons key keys ih =>
    rw [List.filterMap_cons, List.filter_cons]
    cases entries.lookup key with
    | none => exact ih
    | some value => exact congrArg (key :: ·) ih

theorem keys_ordered (verbose : Bool) (s : Span) :
    ((shown verbose s).map (·.1)).Pairwise Before := by
  rw [shown_eq, List.map_append, map_fst_filterMap_lookup, List.pairwise_append]
  set entries := collect (visible verbose s.service) s.attributes
  have hfront : ∀ key ∈ leadingKeys.filter fun key => (entries.lookup key).isSome,
      key ∈ leadingKeys := fun _ h => List.mem_of_mem_filter h
  have hback : ∀ key ∈ (entries.filter (·.1 ∉ leadingKeys)).map (·.1), key ∉ leadingKeys := by
    intro key h
    obtain ⟨entry, hentry, rfl⟩ := List.mem_map.mp h
    exact of_decide_eq_true (List.mem_filter.mp hentry).2
  refine ⟨?_, ?_, fun a ha b hb => .mixed (hfront a ha) (hback b hb)⟩
  · have hindex := (pairwise_idxOf leadingKeys_nodup).sublist
      (List.filter_sublist (p := fun key => (entries.lookup key).isSome))
    exact hindex.imp_of_mem fun ha hb h => .leading (hfront _ ha) (hfront _ hb) h
  · have hsorted : ((entries.filter (·.1 ∉ leadingKeys)).map (·.1)).Pairwise (· < ·) :=
      List.pairwise_map.mpr ((sorted_collect _ _).sublist List.filter_sublist)
    exact hsorted.imp_of_mem fun ha hb h =>
      .others (hback _ ha) (hback _ hb) (Text.octets_lt_iff.mpr h)

theorem displays_shown (verbose : Bool) (s : Span) : Displays verbose s (shown verbose s) where
  mem_iff key := by
    constructor
    · intro h
      obtain ⟨entry, hentry, rfl⟩ := List.mem_map.mp h
      obtain ⟨hseen, a, ⟨hkey, before, after, hsplit, -⟩, -⟩ :=
        lookup_collect_eq_some_iff.mp (mem_shown_iff.mp hentry)
      exact ⟨⟨a, by simp [hsplit], hkey⟩, hseen⟩
    · rintro ⟨hkey, hseen⟩
      obtain ⟨a, ha⟩ := exists_lastWith hkey
      have hentry : (key, a.value.display) ∈ shown verbose s :=
        mem_shown_iff.mpr (lookup_collect_eq_some_iff.mpr ⟨hseen, a, ha, rfl⟩)
      exact List.mem_map_of_mem hentry
  nodup := by
    refine (keys_ordered verbose s).imp ?_
    rintro a _ h rfl
    exact h.asymm h
  value_eq := by
    intro entry hentry
    exact (lookup_collect_eq_some_iff.mp (mem_shown_iff.mp hentry)).2
  ordered := keys_ordered verbose s

namespace Displays

variable {entries' : List (String × String)}

theorem keys_eq (h : Displays verbose s entries) (h' : Displays verbose s entries') :
    entries.map (·.1) = entries'.map (·.1) := by
  have hperm : (entries.map (·.1)).Perm (entries'.map (·.1)) :=
    (List.perm_ext_iff_of_nodup h.nodup h'.nodup).mpr fun key => by rw [h.mem_iff, h'.mem_iff]
  exact hperm.eq_of_pairwise (fun _ _ _ _ hab hba => absurd hba hab.asymm) h.ordered h'.ordered

/-- The keys determine the entries. -/
theorem eq_map (h : Displays verbose s entries) :
    entries = (entries.map (·.1)).map fun key => (key, lastValue s key) := by
  rw [List.map_map]
  refine (List.map_id _).symm.trans (List.map_congr_left fun entry hentry => ?_)
  obtain ⟨a, ha, hvalue⟩ := h.value_eq entry hentry
  exact Prod.ext rfl (hvalue.trans ha.lastValue_eq.symm)

theorem unique (h : Displays verbose s entries) (h' : Displays verbose s entries') :
    entries = entries' := by
  rw [h.eq_map, h'.eq_map, h.keys_eq h']

/-- What displays the attributes in one order displays them in any other that leaves those of one
key as they stood. -/
theorem reordered {t : Span} (h : Displays verbose s entries) (hservice : t.service = s.service)
    (hattributes : Reordered (·.key) s.attributes t.attributes) : Displays verbose t entries where
  mem_iff key := by
    rw [h.mem_iff, hservice]
    simp only [hattributes.perm.mem_iff]
  nodup := h.nodup
  value_eq := by
    intro entry hentry
    obtain ⟨a, ha, hvalue⟩ := h.value_eq entry hentry
    exact ⟨a, ha.reordered hattributes, hvalue⟩
  ordered := h.ordered

end Displays

theorem shown_reordered (verbose : Bool) {s t : Span} (hservice : t.service = s.service)
    (h : Reordered (·.key) s.attributes t.attributes) : shown verbose t = shown verbose s :=
  (displays_shown verbose t).unique ((displays_shown verbose s).reordered hservice h)

/-- **What is shown of the attributes of a span**: each key that is to be seen once, with the value
of the last attribute that has it, the leading keys as listed and after them the others in the order
of their octets. No other list of entries is like this. -/
theorem shown_eq_iff (verbose : Bool) (s : Span) (entries : List (String × String)) :
    shown verbose s = entries ↔ Displays verbose s entries := by
  constructor
  · rintro rfl
    exact displays_shown verbose s
  · intro h
    exact (displays_shown verbose s).unique h

end TraceWeave.View
