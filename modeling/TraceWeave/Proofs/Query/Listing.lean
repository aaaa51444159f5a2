import TraceWeave.Proofs.Text.Octets
import TraceWeave.Query.Target
import TraceWeave.Trace.Id

/-!
# Identifiers of a listing as targets

A listing shows identifiers by their first eight octets, and a query takes them up again as its
target. An identifier of 32 hexadecimal digits leads back to its trace in either form, with one
exception: eight zeros are no target, so an identifier that starts with them has to be given in
full.

* `selects_short_iff`: which keys an abbreviation selects;
* `resolve_digits`: what becomes of a token of digits;
* `resolve_listed`: the abbreviation and the full identifier as targets;
* `not_resolved`: an identifier whose abbreviation is refused.
-/

namespace TraceWeave.Query.Target

open Text

/-- The first octets of a text, without regard to the case of ASCII letters. -/
def frontOctets (n : Nat) (s : String) : ByteArray :=
  (lowered s).toUTF8.extract 0 n

/-- The identifier consists of 32 hexadecimal digits, and not of zeros alone. -/
structure Digits (key : TraceId) : Prop where
  length_eq : key.text.toList.length = 32
  all_hex : ∀ c ∈ key.text.toList, isHexDigit c = true
  some_ne : ∃ c ∈ key.text.toList, c ≠ '0'

variable {key : TraceId}

/-! ## Selecting -/

/-- The octets at the front of a text are those of a word in lower case. -/
theorem frontOctets_eq_iff {word : List Char} {s : String} :
    frontOctets (byteLength word) s = word.utf8Encode ↔ word <+: lower s.toList := by
  rw [frontOctets, String.toUTF8_eq_toByteArray, lowered, String.toByteArray_ofList]
  exact extract_utf8Encode_iff

theorem selects_short_iff {word : List Char} (hword : lower word = word) {s : String} :
    (short (String.ofList word)).selects s = true ↔ word <+: lower s.toList := by
  simp only [selects, String.toList_ofList]
  constructor
  · intro h
    split at h
    · next front back hcut =>
      obtain ⟨hsplit, -⟩ := splitAtByte?_iff.mp hcut
      rw [sameLetters_iff, hword] at h
      refine ⟨lower back, ?_⟩
      rw [hsplit, ← h, lower, lower, lower, List.map_append]
    · cases h
  · rintro ⟨rest, hrest⟩
    have hfront : lower (s.toList.take word.length) = word := by
      rw [lower, List.map_take, ← lower, ← hrest, List.take_left]
    have hcut : splitAtByte? (byteLength word) s.toList =
        some (s.toList.take word.length, s.toList.drop word.length) := by
      refine splitAtByte?_iff.mpr ⟨(List.take_append_drop _ _).symm, ?_⟩
      rw [← byteLength_lower, hfront]
    rw [hcut]
    exact sameLetters_iff.mpr (hfront.trans hword.symm)

/-- An abbreviation of a key selects what starts with the same octets as the key. -/
theorem selects_short_iff_frontOctets {word : List Char} (hword : lower word = word)
    {s t : String} (ht : word <+: lower t.toList) :
    (short (String.ofList word)).selects s = true ↔
      frontOctets (byteLength word) s = frontOctets (byteLength word) t := by
  rw [selects_short_iff hword, ← frontOctets_eq_iff, frontOctets_eq_iff.mpr ht]

theorem selects_exact_iff {word : List Char} (hword : lower word = word) {s : String} :
    (exact (String.ofList word)).selects s = true ↔ lower s.toList = word := by
  rw [selects, String.toList_ofList, sameLetters_iff, hword]

/-! ## Resolving -/

theorem isId_iff {cs : List Char} :
    isId cs = true ↔ (∀ c ∈ cs, isHexDigit c = true) ∧ ∃ c ∈ cs, c ≠ '0' := by
  simp [isId]

theorem isId_lower (cs : List Char) : isId (lower cs) = isId cs := by
  rw [Bool.eq_iff_iff, isId_iff, isId_iff]
  simp [lower, isHexDigit_toLower, toLower_eq_zero_iff]

theorem isId_lower_iff {cs : List Char} (hhex : ∀ c ∈ cs, isHexDigit c = true) :
    isId (lower cs) = true ↔ ∃ c ∈ cs, c ≠ '0' := by
  rw [isId_lower, isId_iff]
  exact and_iff_right hhex

/-- A token of digits is no word, so its length decides what it names. -/
theorem resolve_digits (token : String) (hhex : ∀ c ∈ token.toList, isHexDigit c = true)
    (hlength : 8 ≤ token.toList.length) (window limit : Bool) :
    resolve (some token) false window limit =
      if token.toList.length = 8 then
        if isId (lower token.toList) then .ok (short (String.ofList (lower token.toList)))
        else .error .malformedShortId
      else if token.toList.length = 32 then
        if isId (lower token.toList) then .ok (exact (String.ofList (lower token.toList)))
        else .error .malformedId
      else .error .idLength := by
  have htrim : trim token.toList = token.toList :=
    trim_eq_self fun c hc => isBlank_hexDigit (hhex c hc)
  have hlower : (lower token.toList).length = token.toList.length := by simp [lower]
  -- The words for targets are shorter than any token that names an identifier.
  have hne : ∀ word : List Char, word.length < 8 → lower token.toList ≠ word := by
    intro word hshort heq
    rw [heq] at hlower
    omega
  simp only [resolve, Option.getD_some, htrim, hlower, List.isEmpty_iff, hne [] (by decide),
    hne "last".toList (by decide), hne "any".toList (by decide), if_false, Bool.false_eq_true]

theorem toList_short (h : Digits key) : key.short.toList = key.text.toList.take 8 := by
  have hcut : splitAtByte? 8 key.text.toList =
      some (key.text.toList.take 8, key.text.toList.drop 8) := by
    refine splitAtByte?_iff.mpr ⟨(List.take_append_drop _ _).symm, ?_⟩
    rw [byteLength_hexDigits fun c hc => h.all_hex c (List.mem_of_mem_take hc), List.length_take,
      h.length_eq]
    rfl
  rw [TraceId.short, String.toList_ofList, abbreviation, hcut]

/-- **What a listing shows can be asked for**, by the abbreviation as long as it is not made of
zeros, and in full: an abbreviation selects the keys that start with the same eight octets, and the
full identifier selects the keys that are the same, both without regard to the case of letters. -/
theorem resolve_listed (h : Digits key) (window limit : Bool) :
    ((∃ c ∈ key.text.toList.take 8, c ≠ '0') →
      ∃ target, resolve (some key.short) false window limit = .ok target ∧
        target.selects key.text = true ∧
        ∀ other : TraceId, target.selects other.text = true ↔
          frontOctets 8 other.text = frontOctets 8 key.text) ∧
    ((∀ c ∈ key.text.toList.take 8, c = '0') →
      resolve (some key.short) false window limit = .error .malformedShortId) ∧
    ∃ target, resolve (some key.text) false window limit = .ok target ∧
      ∀ other : TraceId, target.selects other.text = true ↔
        lowered other.text = lowered key.text := by
  set front := key.text.toList.take 8 with hfront
  have hhex : ∀ c ∈ front, isHexDigit c = true := fun c hc => h.all_hex c (List.mem_of_mem_take hc)
  have hlength : front.length = 8 := by rw [hfront, List.length_take, h.length_eq]; rfl
  have hshort := resolve_digits key.short (by rwa [toList_short h])
    (by rw [toList_short h, ← hfront, hlength]) window limit
  rw [toList_short h, ← hfront, if_pos hlength] at hshort
  refine ⟨fun hsome => ?_, fun hzeros => ?_, ?_⟩
  · have hoctets : byteLength (lower front) = 8 := by
      rw [byteLength_lower, byteLength_hexDigits hhex, hlength]
    have hstart : lower front <+: lower key.text.toList := (List.take_prefix 8 _).map _
    refine ⟨short (String.ofList (lower front)), ?_, ?_, fun other => ?_⟩
    · rw [hshort, if_pos ((isId_lower_iff hhex).mpr hsome)]
    · exact (selects_short_iff (lower_lower front)).mpr hstart
    · rw [selects_short_iff_frontOctets (lower_lower front) hstart, hoctets]
  · have hnot : ¬isId (lower front) = true := by
      rw [isId_lower_iff hhex]
      rintro ⟨c, hc, hne⟩
      exact hne (hzeros c hc)
    rw [hshort, if_neg hnot]
  · have hfull := resolve_digits key.text h.all_hex (by rw [h.length_eq]; decide) window limit
    rw [h.length_eq, if_neg (by decide), if_pos rfl,
      if_pos ((isId_lower_iff h.all_hex).mpr h.some_ne)] at hfull
    refine ⟨_, hfull, fun other => ?_⟩
    rw [selects_exact_iff (lower_lower _), lowered, lowered, String.ofList_inj]

/-- An identifier in capitals: its abbreviation selects what starts like it in small letters, but no
key that has no cut after eight octets. -/
theorem resolve_listed_capitals :
    let key : TraceId := ⟨"0AF7651916CD43DD8448EB211C80319C"⟩
    Digits key ∧ (∃ c ∈ key.text.toList.take 8, c ≠ '0') ∧
      (∃ target, resolve (some key.short) false true false = .ok target ∧
        target.selects key.text = true ∧ target.selects "0af76519ff" = true ∧
        target.selects "0af7651é" = false) ∧
      ∃ target, resolve (some key.text) false true false = .ok target ∧
        target.selects "0af7651916cd43dd8448eb211c80319c" = true ∧
        target.selects "0af76519" = false := by
  intro key
  have hkey : Digits key :=
    ⟨by decide, List.all_eq_true.mp (by decide), ⟨'A', by decide, by decide⟩⟩
  have hsome : ∃ c ∈ key.text.toList.take 8, c ≠ '0' := ⟨'A', by decide, by decide⟩
  obtain ⟨hshort, -, full, hfull, hfull_selects⟩ := resolve_listed hkey true false
  obtain ⟨target, htarget, hself, hselects⟩ := hshort hsome
  refine ⟨hkey, hsome, ⟨target, htarget, hself, ?_, ?_⟩, full, hfull, ?_, ?_⟩
  · exact (hselects ⟨"0af76519ff"⟩).mpr (by decide)
  · rw [← Bool.not_eq_true]
    exact mt (hselects ⟨"0af7651é"⟩).mp (by decide)
  · exact (hfull_selects ⟨"0af7651916cd43dd8448eb211c80319c"⟩).mpr (by decide)
  · rw [← Bool.not_eq_true]
    exact mt (hfull_selects ⟨"0af76519"⟩).mp (by decide)

/-- An identifier whose abbreviation does not lead back to it. -/
theorem not_resolved :
    let key : TraceId := ⟨"00000000000000000000000000000001"⟩
    Digits key ∧ ¬∃ target, resolve (some key.short) false false false = .ok target := by
  intro key
  refine ⟨⟨by decide, List.all_eq_true.mp (by decide), ⟨'1', by decide, by decide⟩⟩, ?_⟩
  rintro ⟨target, htarget⟩
  have hrefused : resolve (some key.short) false false false = .error .malformedShortId := by
    decide
  rw [hrefused] at htarget
  cases htarget

end TraceWeave.Query.Target
