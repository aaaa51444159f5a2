import TraceWeave.Text.Ascii
import TraceWeave.Text.Blank
import TraceWeave.Text.Utf8
import Mathlib.Data.String.Basic
import Mathlib.Tactic.SplitIfs

/-!
# Octets and letters of a text

Texts are cut after a number of octets, ordered by their characters and compared without case. Here
all three are brought together with the UTF-8 form: a text can be cut exactly where the octets of a
character end, texts are ordered as their octets are, and folding the case moves no place for a cut.

* `splitAtByte?_iff`: where a text can be cut;
* `extract_utf8Encode_iff`: the octets at the front of a text are those of a word exactly if the
  text starts with the word;
* `octets_lt_iff`: the order of texts is the order of their octets;
* `toLower_induction`, `byteLength_lower`: what folding keeps of a character, and that it keeps the
  length in octets.
-/

namespace TraceWeave.Text

/-! ## Octets -/

theorem splitAtByte?_byteLength (front back : List Char) :
    splitAtByte? (byteLength front) (front ++ back) = some (front, back) := by
  induction front with
  | nil => cases back <;> rfl
  | cons c front ih =>
    have hpos := c.utf8Size_pos
    obtain ⟨n, hn⟩ : ∃ n, c.utf8Size + byteLength front = n + 1 :=
      ⟨c.utf8Size + byteLength front - 1, by omega⟩
    have hrest : n + 1 - c.utf8Size = byteLength front := by omega
    rw [byteLength, hn, List.cons_append, splitAtByte?, if_pos (by omega), hrest, ih]
    rfl

theorem splitAtByte?_iff {n : Nat} {cs front back : List Char} :
    splitAtByte? n cs = some (front, back) ↔ cs = front ++ back ∧ byteLength front = n := by
  constructor
  · exact splitAtByte?_append
  · rintro ⟨rfl, rfl⟩
    exact splitAtByte?_byteLength front back

theorem size_utf8Encode (cs : List Char) : cs.utf8Encode.size = byteLength cs := by
  induction cs with
  | nil => simp [byteLength]
  | cons c cs ih =>
    rw [List.utf8Encode_cons, ByteArray.size_append, ih, List.utf8Encode_singleton,
      List.size_toByteArray, String.length_utf8EncodeChar, byteLength]

/-- No character starts with the octets of another one. -/
theorem extract_utf8Encode_iff {word cs : List Char} :
    cs.utf8Encode.extract 0 (byteLength word) = word.utf8Encode ↔ word <+: cs := by
  constructor
  · intro h
    refine List.isPrefix_of_utf8Encode_append_eq_utf8Encode
      (cs.utf8Encode.extract (byteLength word) cs.utf8Encode.size) ?_
    rw [← h, ByteArray.extract_append_extract, Nat.zero_min]
    exact ByteArray.extract_zero_max_size
  · rintro ⟨rest, rfl⟩
    rw [List.utf8Encode_append]
    exact ByteArray.extract_append_eq_left (size_utf8Encode word).symm

/-! ## The order of octets -/

/-- The octets of a text. -/
def octets (s : String) : List UInt8 :=
  s.toUTF8.data.toList

theorem octets_eq_flatMap (s : String) : octets s = s.toList.flatMap String.utf8EncodeChar := by
  have hencode : s.toByteArray = s.toList.utf8Encode := by
    rw [← String.toByteArray_ofList, String.ofList_toList]
  rw [octets, String.toUTF8_eq_toByteArray, hencode, List.utf8Encode, List.toList_data_toByteArray]

theorem cons_ofNat_lt {m n : Nat} {xs ys : List UInt8} (hn : n < 256) (hle : m ≤ n)
    (h : m = n → xs < ys) : UInt8.ofNat m :: xs < UInt8.ofNat n :: ys := by
  rw [List.cons_lt_cons_iff]
  rcases Nat.lt_or_eq_of_le hle with hlt | rfl
  · refine .inl (UInt8.lt_iff_toNat_lt.mpr ?_)
    rw [UInt8.toNat_ofNat_of_lt' hn, UInt8.toNat_ofNat_of_lt' (hlt.trans hn)]
    exact hlt
  · exact .inr ⟨rfl, h rfl⟩

/-- The octets of two characters differ before either of them ends, so what follows is not
compared. -/
theorem utf8EncodeChar_append_lt {c d : Char} (h : c < d) (xs ys : List UInt8) :
    String.utf8EncodeChar c ++ xs < String.utf8EncodeChar d ++ ys := by
  have hlt : c.val.toNat < d.val.toNat := h
  have hd : d.val.toNat < 0x110000 :=
    d.valid.elim (fun h => Nat.lt_trans h (by decide)) fun h => h.2
  simp only [String.utf8EncodeChar]
  -- Forms of different length differ in the first octet, as it says how many follow.
  split_ifs <;> simp only [List.cons_append, List.nil_append]
  all_goals
    repeat' first
      | omega
      | refine cons_ofNat_lt (by omega) (by omega) fun _ => ?_

theorem flatMap_utf8EncodeChar_lt {cs ds : List Char} (h : cs < ds) :
    cs.flatMap String.utf8EncodeChar < ds.flatMap String.utf8EncodeChar := by
  induction cs generalizing ds with
  | nil =>
    cases ds with
    | nil => exact absurd h (List.lt_irrefl _)
    | cons d ds =>
      obtain ⟨x, xs, hx⟩ := List.exists_cons_of_ne_nil (String.utf8EncodeChar_ne_nil (c := d))
      rw [List.flatMap_cons, hx, List.flatMap_nil]
      exact List.nil_lt_cons _ _
  | cons c cs ih =>
    cases ds with
    | nil => exact absurd h (List.not_lt_nil _)
    | cons d ds =>
      rw [List.flatMap_cons, List.flatMap_cons]
      rcases List.cons_lt_cons_iff.mp h with hlt | ⟨rfl, hrest⟩
      · exact utf8EncodeChar_append_lt hlt _ _
      · exact List.append_left_lt (ih hrest)

/-- The order of texts, which goes by their characters, is the order of their octets. -/
theorem octets_lt_iff {s t : String} : octets s < octets t ↔ s < t := by
  have hmono : ∀ {s t : String}, s < t → octets s < octets t := by
    intro s t h
    rw [octets_eq_flatMap, octets_eq_flatMap]
    exact flatMap_utf8EncodeChar_lt (String.lt_iff_toList_lt.mp h)
  refine ⟨fun h => ?_, hmono⟩
  rcases lt_trichotomy s t with hlt | rfl | hgt
  · exact hlt
  · exact absurd h (List.lt_irrefl _)
  · exact absurd h (List.lt_asymm (hmono hgt))

/-! ## Letters -/

theorem forall_ascii {P : Char → Prop} (h : ∀ n < 128, P (Char.ofNat n)) {c : Char}
    (hc : c.toNat < 128) : P c := by
  have hP := h c.toNat hc
  rwa [Char.ofNat_toNat] at hP

/-- Folding moves no character but ASCII letters. -/
theorem toLower_induction {P : Char → Char → Prop}
    (hascii : ∀ n < 128, P (Char.ofNat n).toLower (Char.ofNat n)) (hself : ∀ c, P c c) (c : Char) :
    P c.toLower c := by
  by_cases hupper : c.isUpper = true
  · have hc : c.toNat < 128 :=
      Nat.lt_of_le_of_lt (of_decide_eq_true hupper).2 (by decide)
    exact forall_ascii (P := fun c => P c.toLower c) hascii hc
  · have hsame : c.toLower = c := dif_neg fun hrange => hupper (decide_eq_true hrange)
    rw [hsame]
    exact hself c

theorem utf8Size_toLower (c : Char) : c.toLower.utf8Size = c.utf8Size :=
  toLower_induction (P := fun d c => d.utf8Size = c.utf8Size) (by decide) (fun _ => rfl) c

theorem byteLength_lower (cs : List Char) : byteLength (lower cs) = byteLength cs := by
  induction cs with
  | nil => rfl
  | cons c cs ih =>
    rw [lower, List.map_cons, byteLength, byteLength, utf8Size_toLower]
    exact congrArg _ ih

theorem toLower_toLower (c : Char) : c.toLower.toLower = c.toLower :=
  toLower_induction (P := fun d c => d.toLower = c.toLower) (by decide) (fun _ => rfl) c

theorem lower_lower (cs : List Char) : lower (lower cs) = lower cs := by
  rw [lower, lower, List.map_map]
  exact List.map_congr_left fun c _ => toLower_toLower c

/-! ## Hexadecimal digits -/

theorem isHexDigit_lt {c : Char} (h : isHexDigit c = true) : c.toNat < 128 := by
  simp only [isHexDigit, Char.isDigit, Bool.or_eq_true, Bool.and_eq_true, decide_eq_true_eq] at h
  rcases h with (h | h) | h
  · exact Nat.lt_of_le_of_lt h.2 (by decide)
  · exact Nat.lt_of_le_of_lt h.2 (by decide)
  · exact Nat.lt_of_le_of_lt h.2 (by decide)

theorem utf8Size_hexDigit {c : Char} (h : isHexDigit c = true) : c.utf8Size = 1 :=
  forall_ascii (P := fun c => c.utf8Size = 1) (by decide) (isHexDigit_lt h)

theorem byteLength_hexDigits {cs : List Char} (h : ∀ c ∈ cs, isHexDigit c = true) :
    byteLength cs = cs.length := by
  induction cs with
  | nil => rfl
  | cons c cs ih =>
    obtain ⟨hc, hcs⟩ := List.forall_mem_cons.mp h
    rw [byteLength, utf8Size_hexDigit hc, ih hcs, List.length_cons, Nat.add_comm]

theorem isBlank_hexDigit {c : Char} (h : isHexDigit c = true) : isBlank c = false :=
  forall_ascii (P := fun c => isHexDigit c = true → isBlank c = false) (by decide)
    (isHexDigit_lt h) h

theorem isHexDigit_toLower (c : Char) : isHexDigit c.toLower = isHexDigit c :=
  toLower_induction (P := fun d c => isHexDigit d = isHexDigit c) (by decide) (fun _ => rfl) c

theorem toLower_eq_zero_iff (c : Char) : c.toLower = '0' ↔ c = '0' :=
  toLower_induction (P := fun d c => d = '0' ↔ c = '0') (by decide) (fun _ => Iff.rfl) c

end TraceWeave.Text
