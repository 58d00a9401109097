import FilterQuery.Proofs.Expression.Needles

/-!
Offsets in bytes of what is found in a text. Among the bytes of a text in UTF-8 those of a needle, up to the case of
ASCII letters, stand only where characters begin and end (`standsAt_iff`). Main statement: the search finds the
least offset at which the bytes of the needle stand, and the text can be cut at the offsets of what it finds
(`find?_utf8`).
-/
namespace FilterQuery

namespace Text

variable {cs needle : List Char} {before after : List UInt8} {offset : Nat} {text : String}

/-- The bytes of characters in UTF-8. -/
def utf8 (cs : List Char) : List UInt8 := cs.flatMap String.utf8EncodeChar

/-- The byte in lower case, if it is a capital letter of ASCII. -/
def lowerByte (b : UInt8) : UInt8 := if 65 ≤ b ∧ b ≤ 90 then b + 32 else b

/-- The bytes of the needle are those of the text from the offset on, up to the case of ASCII letters. -/
def StandsAt (needle text : String) (offset : Nat) : Prop :=
  ∃ before found after, text.toUTF8.data.toList = before ++ (found ++ after) ∧ before.length = offset ∧
    found.map lowerByte = needle.toUTF8.data.toList.map lowerByte

/-- The text is cut at the offsets of the span into three parts. A position in a text is an offset with the fact
that it is a boundary of characters. -/
def Cuts (text : String) (span : Span) (before found after : String) : Prop :=
  ∃ start stop : text.Pos, start.offset.byteIdx = span.start ∧ stop.offset.byteIdx = span.stop ∧
    start ≤ stop ∧ (text.sliceTo start).copy = before ∧ text.extract start stop = found ∧
    (text.sliceFrom stop).copy = after

section Bytes

@[simp] theorem utf8_append (as bs : List Char) : utf8 (as ++ bs) = utf8 as ++ utf8 bs := List.flatMap_append

theorem data_toUTF8_ofList (cs : List Char) : (String.ofList cs).toUTF8.data.toList = utf8 cs := by
  simp [String.toUTF8_eq_toByteArray, List.utf8Encode, utf8]

theorem data_toUTF8 (text : String) : text.toUTF8.data.toList = utf8 text.toList := by
  rw [← data_toUTF8_ofList, String.ofList_toList]

theorem length_utf8 (cs : List Char) : (utf8 cs).length = byteLength cs := by
  rw [byteLength_eq, ← data_toUTF8_ofList]
  rfl

end Bytes

section Case

theorem utf8EncodeChar_of_ascii {c : Char} (ascii : c.toNat ≤ 127) :
    String.utf8EncodeChar c = [UInt8.ofNat c.toNat] := by
  rw [String.utf8EncodeChar]
  exact if_pos ascii

theorem byte_of_not_ascii {c : Char} (notAscii : 127 < c.toNat) :
    ∀ b ∈ String.utf8EncodeChar c, 128 ≤ b.toNat := by
  have size : ¬c.val.toNat ≤ 127 := Nat.not_le.mpr notAscii
  simp only [String.utf8EncodeChar, if_neg size]
  -- Of two bytes, of three, and of four, all have the highest bit.
  split
  · simp only [List.forall_mem_cons, UInt8.toNat_ofNat']
    refine ⟨by omega, by omega, List.forall_mem_nil _⟩
  · split
    · simp only [List.forall_mem_cons, UInt8.toNat_ofNat']
      refine ⟨by omega, by omega, by omega, List.forall_mem_nil _⟩
    · simp only [List.forall_mem_cons, UInt8.toNat_ofNat']
      refine ⟨by omega, by omega, by omega, by omega, List.forall_mem_nil _⟩

theorem lowerByte_of_not_ascii {b : UInt8} (notAscii : 128 ≤ b.toNat) : lowerByte b = b := by
  refine if_neg ?_
  rintro ⟨_, high⟩
  have bound := UInt8.le_iff_toNat_le.mp high
  exact absurd (notAscii.trans bound) (by decide)

theorem lowerByte_ofNat : ∀ n ≤ 127, lowerByte (UInt8.ofNat n) = UInt8.ofNat (Char.ofNat n).toLower.toNat := by
  decide

/-- The bytes of a character, in lower case, are those of the character in lower case. -/
theorem map_lowerByte_utf8EncodeChar (c : Char) :
    (String.utf8EncodeChar c).map lowerByte = String.utf8EncodeChar c.toLower := by
  by_cases ascii : c.toNat ≤ 127
  · have lower : c.toLower.toNat ≤ 127 := by
      rcases toLower_cases c with same | ⟨_, high, shifted⟩
      · rwa [same]
      · omega
    rw [utf8EncodeChar_of_ascii ascii, utf8EncodeChar_of_ascii lower, List.map_singleton,
      lowerByte_ofNat c.toNat ascii, Char.ofNat_toNat]
  · have same : c.toLower = c := by
      rcases toLower_cases c with same | ⟨_, high, _⟩
      · exact same
      · omega
    have bytes : ∀ b ∈ String.utf8EncodeChar c, lowerByte b = b := fun b member =>
      lowerByte_of_not_ascii (byte_of_not_ascii (Nat.not_le.mp ascii) b member)
    rw [same, List.map_congr_left bytes, List.map_id']

theorem map_lowerByte_utf8 (cs : List Char) : (utf8 cs).map lowerByte = utf8 (cs.map Char.toLower) := by
  simp only [utf8, List.map_flatMap, List.flatMap_map, map_lowerByte_utf8EncodeChar]

theorem byteLength_map_toLower (cs : List Char) : byteLength (cs.map Char.toLower) = byteLength cs := by
  rw [← length_utf8, ← map_lowerByte_utf8, List.length_map, length_utf8]

end Case

section Boundaries

/-- Where the bytes of a needle stand among those of a text, a character of the text begins: the first byte of a
character is none of its later bytes. -/
theorem isValid_of_utf8_eq (nonempty : needle ≠ []) (shape : utf8 cs = before ++ (utf8 needle ++ after)) :
    (String.Pos.Raw.mk before.length).IsValid (String.ofList cs) := by
  obtain ⟨n, needle, rfl⟩ := List.exists_cons_of_ne_nil nonempty
  have size : 0 < (String.utf8EncodeChar n).length := by
    rw [String.length_utf8EncodeChar]
    exact n.utf8Size_pos
  have inside : String.Pos.Raw.mk before.length < (String.ofList cs).rawEndPos := by
    rw [String.Pos.Raw.lt_iff, String.byteIdx_rawEndPos, ← byteLength_eq, ← length_utf8, shape]
    simp only [utf8, List.flatMap_cons, List.length_append]
    omega
  have byte : (String.ofList cs).getUTF8Byte ⟨before.length⟩ inside = (String.utf8EncodeChar n)[0] := by
    have listed : (utf8 cs)[before.length]? = some (String.utf8EncodeChar n)[0] := by
      rw [shape, List.getElem?_append_right (Nat.le_refl _), Nat.sub_self, utf8, List.flatMap_cons,
        List.append_assoc, List.getElem?_append_left size, List.getElem?_eq_getElem size]
    rw [← data_toUTF8_ofList, Array.getElem?_toList] at listed
    exact (Array.getElem?_eq_some_iff.mp listed).2
  rw [String.Pos.Raw.isValid_iff_isUTF8FirstByte]
  refine .inr ⟨inside, ?_⟩
  rw [byte, UInt8.isUTF8FirstByte_getElem_utf8EncodeChar]

/-- Among the bytes of a text those of a needle stand only where the needle stands in the text. -/
theorem exists_append_of_utf8_eq (nonempty : needle ≠ []) (shape : utf8 cs = before ++ (utf8 needle ++ after)) :
    ∃ front back, cs = front ++ (needle ++ back) ∧ utf8 front = before := by
  obtain ⟨i, size⟩ := String.Pos.Raw.isValid_ofList.mp (isValid_of_utf8_eq nonempty shape)
  rw [← byteLength_eq, ← length_utf8] at size
  have parts := shape
  rw [← List.take_append_drop i cs, utf8_append] at parts
  obtain ⟨front, rest⟩ := List.append_inj parts size.symm
  have starts : needle <+: cs.drop i := by
    apply List.isPrefix_of_utf8Encode_append_eq_utf8Encode after.toByteArray
    rw [ByteArray.ext_iff]
    apply Array.toList_inj.mp
    simpa [List.utf8Encode, utf8] using rest.symm
  obtain ⟨back, tail⟩ := starts
  exact ⟨cs.take i, back, by rw [tail, List.take_append_drop], front⟩

theorem standsAt_iff {needle text : String} (nonempty : needle ≠ "") : StandsAt needle text offset ↔
    ∃ front found back, text.toList = front ++ (found ++ back) ∧ sameText needle.toList found ∧
      byteLength front = offset := by
  unfold StandsAt
  rw [data_toUTF8, data_toUTF8, map_lowerByte_utf8]
  constructor
  · rintro ⟨before, found, after, shape, rfl, same⟩
    have lower : utf8 (text.toList.map Char.toLower) = before.map lowerByte ++
        (utf8 (needle.toList.map Char.toLower) ++ after.map lowerByte) := by
      rw [← map_lowerByte_utf8, shape, ← same, List.map_append, List.map_append]
    have some : needle.toList.map Char.toLower ≠ [] := by simpa using nonempty
    obtain ⟨front', back', parts, bytes⟩ := exists_append_of_utf8_eq some lower
    obtain ⟨front, rest, whole, rfl, tail⟩ := List.map_eq_append_iff.mp parts
    obtain ⟨word, back, rfl, wordLower, rfl⟩ := List.map_eq_append_iff.mp tail
    refine ⟨front, word, back, whole, sameText_iff.mpr wordLower.symm, ?_⟩
    rw [← byteLength_map_toLower, ← length_utf8, bytes, List.length_map]
  · rintro ⟨front, found, back, shape, same, rfl⟩
    refine ⟨utf8 front, utf8 found, utf8 back, ?_, length_utf8 front, ?_⟩
    · rw [shape, utf8_append, utf8_append]
    · rw [map_lowerByte_utf8, sameText_iff.mp same]

end Boundaries

section Cut

/-- A text is cut in two at the offset behind its first part. -/
theorem exists_pos_of_eq_append {front back : String} (shape : text = front ++ back) : ∃ p : text.Pos,
    p.offset.byteIdx = front.utf8ByteSize ∧ (text.sliceTo p).copy = front ∧ (text.sliceFrom p).copy = back := by
  have valid : front.rawEndPos.IsValid text :=
    String.Pos.Raw.isValid_iff_exists_append.mpr ⟨front, back, shape, rfl⟩
  have splits : (String.Pos.mk front.rawEndPos valid).Splits front back := ⟨shape, rfl⟩
  exact ⟨_, rfl, String.copy_sliceTo_eq_iff_exists_splits.mpr ⟨back, splits⟩,
    String.copy_sliceFrom_eq_iff_exists_splits.mpr ⟨front, splits⟩⟩

theorem cuts_of_eq_append {before found after : String} (shape : text = before ++ found ++ after) :
    Cuts text ⟨before.utf8ByteSize, before.utf8ByteSize + found.utf8ByteSize⟩ before found after := by
  obtain ⟨start, startSize, field, _⟩ := exists_pos_of_eq_append (shape.trans (String.append_assoc ..))
  obtain ⟨stop, stopSize, _, rest⟩ := exists_pos_of_eq_append shape
  rw [String.utf8ByteSize_append] at stopSize
  have ordered : start ≤ stop := by
    rw [String.Pos.le_iff, String.Pos.Raw.le_iff, startSize, stopSize]
    exact Nat.le_add_right _ _
  refine ⟨start, stop, startSize, stopSize, ordered, field, ?_, rest⟩
  apply String.toByteArray_inj.mp
  rw [String.toByteArray_extract, startSize, stopSize, shape, String.toByteArray_append,
    String.toByteArray_append, ← String.size_toByteArray, ← String.size_toByteArray, ByteArray.extract_append,
    ByteArray.extract_append_eq_right rfl rfl]
  simp

theorem cuts_span {o : Occurrence} (parts : o.before ++ o.found ++ o.after = text.toList) :
    Cuts text o.span (String.ofList o.before) (String.ofList o.found) (String.ofList o.after) := by
  have shape : text = String.ofList o.before ++ String.ofList o.found ++ String.ofList o.after := by
    rw [← String.ofList_append, ← String.ofList_append, parts, String.ofList_toList]
  have cuts := cuts_of_eq_append shape
  rwa [← byteLength_eq, ← byteLength_eq] at cuts

end Cut

section Find

theorem exists_standsAt_iff {needle text : String} (nonempty : needle ≠ "") :
    (∃ offset, StandsAt needle text offset) ↔ Occurs needle.toList text.toList := by
  constructor
  · rintro ⟨offset, stands⟩
    obtain ⟨front, found, back, shape, same, _⟩ := (standsAt_iff nonempty).mp stands
    exact ⟨front, found ++ back, shape, found, back, rfl, same⟩
  · rintro ⟨front, _, shape, found, back, rfl, same⟩
    exact ⟨byteLength front, (standsAt_iff nonempty).mpr ⟨front, found, back, shape, same, rfl⟩⟩

theorem find?_isSome_iff {needle text : String} : (find? needle.toList text.toList).isSome ↔
    needle ≠ "" ∧ ∃ offset, StandsAt needle text offset := by
  by_cases empty : needle = ""
  · subst empty
    simp [find?]
  · have some : needle.toList ≠ [] := by simpa using empty
    rw [exists_standsAt_iff empty, ← not_iff_not, Option.not_isSome_iff_eq_none, find?_eq_none_iff some]
    simp [empty]

/-- The search finds the least offset at which the bytes of the needle stand, and as many bytes. -/
theorem find?_span {needle text : String} {o : Occurrence} (found : find? needle.toList text.toList = some o) :
    StandsAt needle text o.span.start ∧ (∀ offset, StandsAt needle text offset → o.span.start ≤ offset) ∧
      o.span.stop = o.span.start + needle.utf8ByteSize := by
  have nonempty : needle ≠ "" := (find?_isSome_iff.mp (by rw [found]; rfl)).1
  obtain ⟨parts, same⟩ := find?_found found
  have leftmost := startsNotIn_iff_leftmost.mp (find?_first found)
  rw [List.append_assoc] at parts
  refine ⟨(standsAt_iff nonempty).mpr ⟨o.before, o.found, o.after, parts.symm, same, rfl⟩, ?_, ?_⟩
  · intro offset stands
    obtain ⟨front, word, back, shape, sameWord, rfl⟩ := (standsAt_iff nonempty).mp stands
    have early := leftmost front (word ++ back) (parts.trans shape) ⟨word, back, rfl, sameWord⟩
    obtain ⟨more, rfl⟩ : o.before <+: front := by
      refine List.prefix_of_prefix_length_le (parts ▸ List.prefix_append _ _) ?_ early
      exact shape ▸ List.prefix_append _ _
    show byteLength o.before ≤ _
    rw [byteLength_append]
    exact Nat.le_add_right _ _
  · have size : byteLength o.found = needle.utf8ByteSize := by
      rw [← byteLength_map_toLower, ← sameText_iff.mp same, byteLength_map_toLower, byteLength_eq,
        String.ofList_toList]
    rw [← size]
    rfl

end Find

end Text

open Text Expression

/-- The search finds a needle exactly if it is not empty and its bytes stand somewhere among those of the text, up
to the case of ASCII letters. It finds the least offset of them, and as many bytes as the needle has; there the
text can be cut, and between the offsets it is the needle up to case. Where an operator is found, whatever the
text, the text can be cut too, into what is the field and the rest without blanks. -/
theorem find?_utf8 (needle text : String) :
    ((find? needle.toList text.toList).isSome ↔ needle ≠ "" ∧ ∃ offset, StandsAt needle text offset) ∧
    (∀ o, find? needle.toList text.toList = some o →
      StandsAt needle text o.span.start ∧ (∀ offset, StandsAt needle text offset → o.span.start ≤ offset) ∧
      o.span.stop = o.span.start + needle.utf8ByteSize ∧
      ∃ before found after, Cuts text o.span before found after ∧ sameText needle.toList found.toList) ∧
    ∀ m, operator? text.toList = some m → ∃ before found after, Cuts text m.place.span before found after ∧
      m.field = trim before.toList ∧ m.rest = trim after.toList := by
  refine ⟨find?_isSome_iff, fun o found => ?_, fun m found => ?_⟩
  · obtain ⟨stands, least, size⟩ := find?_span found
    obtain ⟨parts, same⟩ := find?_found found
    exact ⟨stands, least, size, _, _, _, cuts_span parts, by rwa [String.toList_ofList]⟩
  · obtain ⟨row, _, _, placed, _⟩ := operator?_eq_some_iff.mp found
    obtain ⟨parts, _⟩ := find?_found placed
    refine ⟨_, _, _, cuts_span parts, ?_, ?_⟩
    · rw [String.toList_ofList]
      rfl
    · rw [String.toList_ofList]
      rfl

/-- Behind two characters of three bytes each the word is found at the offset 6. -/
theorem find?_utf8_wide :
    find? " like".toList "名称 LIKE '%é%'".toList =
        some ⟨"名称".toList, " LIKE".toList, " '%é%'".toList⟩ ∧
      StandsAt " like" "名称 LIKE '%é%'" 6 ∧
      (∀ offset, StandsAt " like" "名称 LIKE '%é%'" offset → 6 ≤ offset) ∧
      ∃ before found after, Cuts "名称 LIKE '%é%'" ⟨6, 11⟩ before found after ∧
        sameText " like".toList found.toList := by
  have found : find? " like".toList "名称 LIKE '%é%'".toList =
      some ⟨"名称".toList, " LIKE".toList, " '%é%'".toList⟩ := by decide +kernel
  obtain ⟨stands, least, _, cuts⟩ := (find?_utf8 " like" "名称 LIKE '%é%'").2.1 _ found
  have span : (Occurrence.mk "名称".toList " LIKE".toList " '%é%'".toList).span = ⟨6, 11⟩ := by decide +kernel
  rw [span] at stands least cuts
  exact ⟨found, stands, least, cuts⟩

end FilterQuery
