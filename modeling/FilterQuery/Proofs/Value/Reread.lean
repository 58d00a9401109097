import FilterQuery.Proofs.Value.Integers

/-!
Values that are shown and read again. Main statement: what comes back does not change any more, it is the value
that was shown exactly if there are no integers of 64 bits among its floating point numbers, and these come
back as just the integers that they are exactly if they are small or shown in their own digits
(`coerce_display_iff`).
-/
namespace FilterQuery.Value

open Text Decimal

/-- A floating point number as the integer that it is, if this can be written in 64 bits. -/
def exactScalar : Value → Value
  | float x =>
    match x.toInt? with
    | some i => intOr x i
    | none => float x
  | v => v

/-- The value with the integers that its floating point numbers are. -/
def exact : Value → Value
  | list items => list (items.map exactScalar)
  | v => exactScalar v

/-- The number is an integer that can be written in 64 bits. -/
def IsInt64 (x : Binary64) : Prop := ∃ i, x.toInt? = some i ∧ fits i

/-- If the number is an integer that can be written in 64 bits, it is below `2 ^ 53`, or it is shown in its
own digits, or in digits of an integer that cannot be written in 64 bits. -/
def ShownExactly (x : Binary64) : Prop :=
  ∀ i, x.toInt? = some i → fits i → i.natAbs < 2 ^ 53 ∨ shownInt x = i ∨ ¬fits (shownInt x)

section Scalars

variable {x : Binary64} {i : Int} {v : Value}

theorem rereadInt_eq_iff : rereadInt x i = i ↔ i.natAbs < 2 ^ 53 ∨ shownInt x = i ∨ ¬fits (shownInt x) := by
  have power : 2 ^ 53 = 9007199254740992 := by decide
  rw [rereadInt, power]
  split_ifs with small inRange
  · exact iff_of_true rfl (.inl small)
  · simp [small, inRange]
  · exact iff_of_true rfl (.inr (.inr inRange))

theorem fits_rereadInt (inRange : fits i) : fits (rereadInt x i) := by
  rw [rereadInt]
  split_ifs with small shown
  · exact inRange
  · exact shown
  · exact inRange

theorem ofInt_inj {j : Int} (one : fits i) (other : fits j) : Int64.ofInt i = Int64.ofInt j ↔ i = j := by
  rw [← Int64.toInt_inj, toInt_ofInt one, toInt_ofInt other]

theorem rereadScalar_float_cases (x : Binary64) :
    (∃ i, x.toInt? = some i ∧ fits i ∧ rereadScalar (float x) = int (.ofInt (rereadInt x i)) ∧
      exactScalar (float x) = int (.ofInt i)) ∨
    ¬IsInt64 x ∧ rereadScalar (float x) = float x ∧ exactScalar (float x) = float x := by
  cases whole : x.toInt? with
  | none => exact .inr ⟨by simp [IsInt64, whole], by simp [rereadScalar, whole], by simp [exactScalar, whole]⟩
  | some i =>
    by_cases inRange : fits i
    · exact .inl ⟨i, rfl, inRange, by simp [rereadScalar, whole, inRange],
        by simp [exactScalar, intOr, whole, inRange]⟩
    · exact .inr ⟨by simpa [IsInt64, whole] using inRange, by simp [rereadScalar, whole, inRange],
        by simp [exactScalar, intOr, whole, inRange]⟩

theorem rereadScalar_eq_self_iff (scalar : v.IsScalar) :
    v.rereadScalar = v ↔ ∀ x ∈ v.floats, ¬IsInt64 x := by
  cases v with
  | list items => exact absurd scalar id
  | null | bool _ | int _ | text _ => exact iff_of_true rfl (by simp [floats])
  | float x =>
    rw [floats, List.forall_mem_singleton]
    rcases rereadScalar_float_cases x with ⟨i, whole, inRange, shape, _⟩ | ⟨noInt, shape, _⟩
    · rw [shape]
      exact iff_of_false (by simp) (not_not.mpr ⟨i, whole, inRange⟩)
    · exact iff_of_true shape noInt

theorem rereadScalar_eq_exactScalar_iff (scalar : v.IsScalar) :
    v.rereadScalar = v.exactScalar ↔ ∀ x ∈ v.floats, ShownExactly x := by
  cases v with
  | list items => exact absurd scalar id
  | null | bool _ | int _ | text _ => exact iff_of_true rfl (by simp [floats])
  | float x =>
    rw [floats, List.forall_mem_singleton]
    rcases rereadScalar_float_cases x with ⟨i, whole, inRange, shape, shape'⟩ | ⟨noInt, shape, shape'⟩
    · rw [shape, shape', int.injEq, ofInt_inj (fits_rereadInt inRange) inRange, rereadInt_eq_iff]
      simp [ShownExactly, whole, inRange]
    · rw [shape, shape']
      exact iff_of_true rfl fun i whole inRange => absurd ⟨i, whole, inRange⟩ noInt

theorem rereadScalar_rereadScalar (v : Value) : v.rereadScalar.rereadScalar = v.rereadScalar := by
  cases v with
  | float x =>
    rcases rereadScalar_float_cases x with ⟨i, _, _, shape, _⟩ | ⟨_, shape, _⟩
    · rw [shape]
      rfl
    · rw [shape, shape]
  | null | bool _ | int _ | text _ | list _ => rfl

theorem IsScalar.rereadScalar (scalar : v.IsScalar) :
    v.rereadScalar.IsScalar ∧ v.rereadScalar.scalarTexts = v.scalarTexts := by
  cases v with
  | list items => exact absurd scalar id
  | null | bool _ | int _ | text _ => exact ⟨trivial, rfl⟩
  | float x =>
    rcases rereadScalar_float_cases x with ⟨i, _, _, shape, _⟩ | ⟨_, shape, _⟩
    · rw [shape]
      exact ⟨trivial, rfl⟩
    · rw [shape]
      exact ⟨scalar, rfl⟩

theorem IsScalar.exact_eq (scalar : v.IsScalar) : v.exact = v.exactScalar := by
  cases v with
  | list items => exact absurd scalar id
  | null | bool _ | int _ | float _ | text _ => rfl

theorem IsScalar.readable (scalar : v.IsScalar) : v.Readable := by
  cases v with
  | list items => exact absurd scalar id
  | null | bool _ | int _ | float _ | text _ => exact scalar

end Scalars

section Values

variable {v : Value} {items : List Value}

/-- What is so of the items one by one, each by the floating point numbers in it, is so of the list. -/
theorem map_eq_map_iff_floats {f g : Value → Value} {p : Binary64 → Prop}
    (each : ∀ item ∈ items, f item = g item ↔ ∀ x ∈ item.floats, p x) :
    items.map f = items.map g ↔ ∀ x ∈ floatsOf items, p x := by
  rw [List.map_inj_left]
  constructor
  · intro same x member
    obtain ⟨item, inside, isIn⟩ := mem_floatsOf.mp member
    exact (each item inside).mp (same item inside) x isIn
  · intro all item inside
    exact (each item inside).mpr fun x isIn => all x (mem_floatsOf.mpr ⟨item, inside, isIn⟩)

theorem reread_eq_self_iff (readable : v.Readable) : v.reread = v ↔ ∀ x ∈ v.floats, ¬IsInt64 x := by
  rcases readable.cases with scalar | ⟨items, rfl, each⟩
  · rw [scalar.reread_eq]
    exact rereadScalar_eq_self_iff scalar
  · have inItems := map_eq_map_iff_floats (g := id) fun item member => rereadScalar_eq_self_iff (each item member).1
    rw [List.map_id] at inItems
    rw [reread, list.injEq]
    exact inItems

theorem reread_eq_exact_iff (readable : v.Readable) :
    v.reread = v.exact ↔ ∀ x ∈ v.floats, ShownExactly x := by
  rcases readable.cases with scalar | ⟨items, rfl, each⟩
  · rw [scalar.reread_eq, scalar.exact_eq]
    exact rereadScalar_eq_exactScalar_iff scalar
  · rw [reread, exact, list.injEq]
    exact map_eq_map_iff_floats fun item member => rereadScalar_eq_exactScalar_iff (each item member).1

theorem reread_reread (readable : v.Readable) : v.reread.reread = v.reread := by
  rcases readable.cases with scalar | ⟨items, rfl, _⟩
  · rw [scalar.reread_eq, scalar.rereadScalar.1.reread_eq, rereadScalar_rereadScalar]
  · simp [reread, rereadScalar_rereadScalar]

/-- What comes back can be read back as well. -/
theorem Readable.reread (readable : v.Readable) : v.reread.Readable := by
  rcases readable.cases with scalar | ⟨items, rfl, each⟩
  · rw [scalar.reread_eq]
    exact scalar.rereadScalar.1.readable
  · intro item member
    obtain ⟨old, inside, rfl⟩ := List.mem_map.mp member
    obtain ⟨scalar, free⟩ := each old inside
    exact ⟨scalar.rereadScalar.1, scalar.rereadScalar.2 ▸ free⟩

theorem coerce_display (readable : v.Readable) : coerce (some v.display) = v.reread := ofToken_display readable

/-- A value that is read from a token can be read back from the text it is shown as, and so can every value but
lists that are nested or whose texts have commas in them. What comes back does not change when it is shown and
read once more. It is the value itself exactly if there are no integers of 64 bits among its floating point
numbers, and the value with just these integers in their place exactly if each of them is below `2 ^ 53` or
is shown in its own digits, or in digits of an integer that is too large. -/
theorem coerce_display_iff :
    (∀ token, (coerce token).Readable) ∧
    ∀ v : Value, v.Readable →
      coerce (some v.display) = v.reread ∧
      coerce (some (coerce (some v.display)).display) = coerce (some v.display) ∧
      (coerce (some v.display) = v ↔ ∀ x ∈ v.floats, ¬IsInt64 x) ∧
      (coerce (some v.display) = v.exact ↔ ∀ x ∈ v.floats, ShownExactly x) := by
  refine ⟨fun token => ?_, fun v readable => ?_⟩
  · cases token with
    | none => trivial
    | some token => exact (ofToken_readable token.toList).1
  · rw [coerce_display readable, coerce_display readable.reread]
    exact ⟨rfl, reread_reread readable, reread_eq_self_iff readable, reread_eq_exact_iff readable⟩

/-- Texts that look like numbers, lists, keywords or quotations come back as they were. -/
theorem coerce_display_iff_lookalikes :
    (list [text " (1e5)' ", text "NULL", float (.ofBits 0x4010000000000000)]).Readable ∧
      coerce (some "(' (1e5)' ', 'NULL', 4)") = list [text " (1e5)' ", text "NULL", int 4] := by
  have readable : (list [text " (1e5)' ", text "NULL", float (.ofBits 0x4010000000000000)]).Readable := by
    simp [Readable, IsScalar, scalarTexts]
    decide +kernel
  have back := (coerce_display_iff.2 _ readable).1
  have shown : (list [text " (1e5)' ", text "NULL", float (.ofBits 0x4010000000000000)]).display =
      "(' (1e5)' ', 'NULL', 4)" := by decide +kernel
  rw [shown] at back
  exact ⟨readable, back.trans (by decide +kernel)⟩

/-- A large integer comes back as the integer in whose digits it is shown. -/
theorem coerce_display_changed : ∃ x : Binary64, coerce (some "1234567890123456768.0") = float x ∧
    x.isFinite ∧ x.toInt? = some 1234567890123456768 ∧ (float x).exact = int 1234567890123456768 ∧
    (float x).display = "1234567890123456800" ∧
    coerce (some (float x).display) = int 1234567890123456800 := by
  have shown : (float (.ofBits 0x43b12210f47de981)).display = "1234567890123456800" := by decide +kernel
  refine ⟨.ofBits 0x43b12210f47de981, by decide +kernel, by decide +kernel, by decide +kernel,
    by decide +kernel, shown, ?_⟩
  rw [shown]
  decide +kernel

end Values

end FilterQuery.Value
