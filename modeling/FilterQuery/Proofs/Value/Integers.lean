import FilterQuery.Proofs.Decimal.Exact
import FilterQuery.Proofs.Value.Display

/-!
The integers that numbers are read as. An integer without an exponent is read digit by digit, and all
other numbers go through the nearest floating point number. Main statement: a number is read as exactly
the integer that it stands for, unless that number is rounded and either of the two is an integer of
64 bits (`coerce_exact_iff`).
-/
namespace FilterQuery.Value

open Text Decimal

/-- The value is an integer that can be written in 64 bits. -/
def InRange (q : ℚ) : Prop := ∃ n : Int64, q = n.toInt

/-- Nothing is rounded where the literal is read: it is an integer without an exponent, or its value is
that of a floating point number. -/
def Unrounded (l : Literal) : Prop :=
  l.exponent = none ∧ InRange l.value ∨ ∃ x : Binary64, x.isFinite ∧ x.value = l.value

/-- The number that the literal is rounded to is an integer that can be written in 64 bits. -/
def RoundsInRange (l : Literal) : Prop := l.rounded.isFinite ∧ InRange l.rounded.value

section Ranges

variable {i : ℤ} {n : Int64}

theorem toInt_ofInt (inRange : fits i) : (Int64.ofInt i).toInt = i := by
  have bounds := fits_iff.mp inRange
  exact Int64.toInt_ofInt_of_le (by omega) (by omega)

theorem inRange_intCast : InRange i ↔ fits i := by
  constructor
  · rintro ⟨n, same⟩
    rw [Int.cast_inj.mp same]
    exact fits_toInt n
  · intro inRange
    exact ⟨.ofInt i, by rw [toInt_ofInt inRange]⟩

theorem ofInt_eq_iff (inRange : fits i) : int (.ofInt i) = int n ↔ i = n.toInt := by
  rw [int.injEq, ← Int64.toInt_inj, toInt_ofInt inRange]

theorem intOr_eq_int_iff {x : Binary64} : intOr x i = int n ↔ i = n.toInt := by
  rw [intOr]
  split
  · next inRange => exact ofInt_eq_iff inRange
  · next large =>
    constructor
    · intro same
      cases same
    · rintro rfl
      exact absurd (fits_toInt n) large

end Ranges

section Literals

variable {l : Literal} {n : Int64}

/-- A literal without a point and an exponent stands for the integer that its digits are. -/
theorem value_of_plain (noPoint : l.fraction = none) (noExponent : l.exponent = none) :
    l.value = signed l.negative l.significand := by
  have power : l.power = 0 := by simp [Literal.power, noPoint, noExponent]
  rw [Literal.value, power, zpow_zero, mul_one, signedValue, signed]
  split <;> simp

theorem ofLiteral?_of_inRange (noPoint : l.fraction = none) (noExponent : l.exponent = none)
    (inRange : InRange l.value) : ofLiteral? l = some (int n) ↔ l.value = n.toInt := by
  have written := value_of_plain noPoint noExponent
  rw [written, inRange_intCast] at inRange
  rw [written, Int.cast_inj, ← ofInt_eq_iff inRange, ← Option.some_inj]
  rw [signed] at inRange ⊢
  simp [ofLiteral?, noPoint, noExponent, inRange]

/-- A literal without a point that is not read digit by digit is read as the number it is rounded to. -/
theorem ofLiteral?_rounded (noPoint : l.fraction = none) (rounded : ¬(l.exponent = none ∧ InRange l.value)) :
    ofLiteral? l = if l.rounded.isFinite then
      some (l.rounded.toInt?.elim (float l.rounded) (intOr l.rounded)) else none := by
  -- Only digits alone, and only such as are in range, would be read without rounding.
  have notWritten : l.exponent = none → fits (signed l.negative l.significand) = false := by
    intro noExponent
    rw [value_of_plain noPoint noExponent, inRange_intCast] at rounded
    exact Bool.eq_false_iff.mpr fun inRange => rounded ⟨noExponent, inRange⟩
  have number : Binary64.ofDecimal l.negative l.significand l.power = l.rounded := rfl
  rw [signed] at notWritten
  rw [ofLiteral?, number, noPoint]
  rw [if_neg (by simpa using notWritten)]
  by_cases finite : l.rounded.isFinite
  · rw [if_neg (by simp [finite]), if_pos finite]
    cases l.rounded.toInt? <;> rfl
  · rw [if_pos (by simp [finite]), if_neg finite]

theorem ofLiteral?_of_rounded (noPoint : l.fraction = none)
    (rounded : ¬(l.exponent = none ∧ InRange l.value)) :
    ofLiteral? l = some (int n) ↔ l.rounded.isFinite ∧ l.rounded.value = n.toInt := by
  rw [ofLiteral?_rounded noPoint rounded]
  by_cases finite : l.rounded.isFinite
  · have whole := Binary64.toInt?_eq_some_iff_value (i := n.toInt) finite
    rw [if_pos finite, Option.some_inj, ← whole]
    cases l.rounded.toInt? with
    | none => simp [finite]
    | some i => simp [finite, intOr_eq_int_iff]
  · simp [finite]

/-- With a point there is no integer. -/
theorem ofLiteral?_ne_int (point : l.fraction.isSome) : ofLiteral? l ≠ some (int n) := by
  obtain ⟨digits, fraction⟩ := Option.isSome_iff_exists.mp point
  simp only [ofLiteral?, fraction, Option.isNone_some, Bool.false_and, Bool.false_eq_true, if_false]
  split
  · simp
  · simp

/-- What is not rounded is read as the integer that it is. -/
theorem ofLiteral?_of_unrounded (noPoint : l.fraction = none) (unrounded : Unrounded l) :
    ofLiteral? l = some (int n) ↔ l.value = n.toInt := by
  by_cases written : l.exponent = none ∧ InRange l.value
  · exact ofLiteral?_of_inRange noPoint written.1 written.2
  · obtain ⟨x, finite, same⟩ := unrounded.resolve_left written
    obtain ⟨finite', value⟩ := Binary64.rounded_of_value finite same
    rw [ofLiteral?_of_rounded noPoint written, value]
    exact and_iff_right finite'

theorem unrounded_of_small (small : n.toInt.natAbs < 2 ^ 53) (value : l.value = n.toInt) : Unrounded l := by
  obtain ⟨x, finite, same⟩ := Binary64.exists_of_small small
  exact .inr ⟨x, finite, same.trans value.symm⟩

/-- What is rounded is read as an integer if the number it is rounded to is one. -/
theorem ofLiteral?_of_not_unrounded (noPoint : l.fraction = none) (rounded : ¬Unrounded l) :
    ofLiteral? l = some (int n) ↔ l.rounded.isFinite ∧ l.rounded.value = n.toInt :=
  ofLiteral?_of_rounded noPoint fun written => rounded (.inl written)

/-- What is read as the integer that it is was not rounded: its value is that of the number read. -/
theorem unrounded_of_read (noPoint : l.fraction = none) (read : ofLiteral? l = some (int n))
    (value : l.value = n.toInt) : Unrounded l := by
  by_contra rounded
  obtain ⟨finite, same⟩ := (ofLiteral?_of_not_unrounded noPoint rounded).mp read
  exact rounded (.inr ⟨l.rounded, finite, same.trans value.symm⟩)

theorem ofLiteral?_exact_iff (noPoint : l.fraction = none) :
    (∀ n : Int64, ofLiteral? l = some (int n) ↔ l.value = n.toInt) ↔
      Unrounded l ∨ ¬InRange l.value ∧ ¬RoundsInRange l := by
  by_cases unrounded : Unrounded l
  · exact iff_of_true (fun n => ofLiteral?_of_unrounded noPoint unrounded) (.inl unrounded)
  · constructor
    · intro law
      refine .inr ⟨?_, ?_⟩
      · rintro ⟨n, value⟩
        exact unrounded (unrounded_of_read noPoint ((law n).mpr value) value)
      · rintro ⟨finite, n, same⟩
        have read := (ofLiteral?_of_not_unrounded noPoint unrounded).mpr ⟨finite, same⟩
        exact unrounded (unrounded_of_read noPoint read ((law n).mp read))
    · rintro (here | ⟨outside, outside'⟩) n
      · exact absurd here unrounded
      · rw [ofLiteral?_of_not_unrounded noPoint unrounded]
        exact iff_of_false (fun same => outside' ⟨same.1, n, same.2⟩) fun value => outside ⟨n, value⟩

end Literals

section Tokens

variable {token : String} {l : Literal} {n : Int64}

theorem coerce_eq_int_iff (spells : l.Spells (trim token.toList)) :
    coerce (some token) = int n ↔ ofLiteral? l = some (int n) := by
  rw [coerce, ofToken_of_spells spells]
  cases ofLiteral? l <;> simp

/-- A number with a point is never read as an integer. A number without one is read as exactly the integer
of 64 bits that it stands for, or as none if it stands for none, unless it is rounded and it or the number
that it is rounded to is such an integer; and it is read as the number that it is rounded to then. What
stands for an integer below `2 ^ 53` is never rounded. -/
theorem coerce_exact_iff (spells : l.Spells (trim token.toList)) :
    (l.fraction.isSome → ∀ n, coerce (some token) ≠ int n) ∧
    (l.fraction = none →
      ((∀ n : Int64, coerce (some token) = int n ↔ l.value = n.toInt) ↔
        Unrounded l ∨ ¬InRange l.value ∧ ¬RoundsInRange l) ∧
      (¬Unrounded l → ∀ n : Int64,
        coerce (some token) = int n ↔ l.rounded.isFinite ∧ l.rounded.value = n.toInt) ∧
      ∀ n : Int64, n.toInt.natAbs < 2 ^ 53 → l.value = n.toInt → coerce (some token) = int n) := by
  simp only [coerce_eq_int_iff spells, ne_eq]
  refine ⟨fun point n => ofLiteral?_ne_int point, fun noPoint => ⟨ofLiteral?_exact_iff noPoint, ?_, ?_⟩⟩
  · intro rounded n
    exact ofLiteral?_of_not_unrounded noPoint rounded
  · intro n small value
    exact (ofLiteral?_of_unrounded noPoint (unrounded_of_small small value)).mpr value

/-- Between `2 ^ 53` and `2 ^ 54` every other integer is rounded where it is written with an exponent. -/
theorem coerce_exact_iff_odd :
    ∃ l : Literal, l.Spells (trim "9007199254740993e0".toList) ∧ l.fraction = none ∧
      l.value = (9007199254740993 : Int64).toInt ∧ ¬Unrounded l ∧
      coerce (some "9007199254740993e0") = int 9007199254740992 := by
  obtain ⟨l, shape⟩ : ∃ l : Literal, l = ⟨false, "9007199254740993".toList, none, some 0⟩ := ⟨_, rfl⟩
  have spells : l.Spells (trim "9007199254740993e0".toList) := by
    rw [shape]
    exact Literal.spells_of_read? (by decide +kernel)
  have noPoint : l.fraction = none := by rw [shape]
  have value : l.value = (9007199254740993 : Int64).toInt := by
    have digits : l.significand = 9007199254740993 := by
      rw [shape]
      decide +kernel
    have written : (9007199254740993 : Int64).toInt = 9007199254740993 := by decide
    rw [Literal.value, digits, shape, written]
    norm_num [signedValue, Literal.power]
  have finite : l.rounded.isFinite := by
    rw [shape]
    decide +kernel
  have rounded : l.rounded.value = (9007199254740992 : Int64).toInt := by
    refine (Binary64.toInt?_eq_some_iff_value finite).mp ?_
    rw [shape]
    decide +kernel
  have changed : ¬Unrounded l := by
    rintro (⟨noExponent, _⟩ | ⟨x, finite', same⟩)
    · rw [shape] at noExponent
      cases noExponent
    · have back := (Binary64.rounded_of_value finite' same).2
      rw [rounded, value, Int.cast_inj] at back
      exact absurd back (by decide)
  obtain ⟨_, read, _⟩ := (coerce_exact_iff spells).2 noPoint
  exact ⟨l, spells, noPoint, value, changed, (read changed _).mpr ⟨finite, rounded⟩⟩

end Tokens

end FilterQuery.Value
