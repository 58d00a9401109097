import FilterQuery.Proofs.Decimal.Shortest

/-!
The exact values of decimals and of binary numbers. Main statements: a literal whose value is that of a
binary number is rounded to a number of this value (`Binary64.rounded_of_value`), and whole numbers below
`2 ^ 53` are binary numbers (`Binary64.exists_of_small`).
-/
namespace FilterQuery.Decimal

/-- The value of a magnitude with a sign. -/
def signedValue (negative : Bool) (q : ℚ) : ℚ := if negative then -q else q

theorem abs_signedValue (negative : Bool) {q : ℚ} (nonneg : 0 ≤ q) : |signedValue negative q| = q := by
  cases negative <;> simp [signedValue, abs_of_nonneg nonneg]

/-- The value that the digits and the exponent of a literal stand for. -/
def Literal.value (l : Literal) : ℚ := signedValue l.negative (l.significand * (10 : ℚ) ^ l.power)

/-- The binary number that a literal is rounded to. -/
def Literal.rounded (l : Literal) : Binary64 := .ofDecimal l.negative l.significand l.power

namespace Binary64

variable {x : Binary64} {significand : ℕ} {power : ℤ}

/-- The value of a finite number. -/
def value (x : Binary64) : ℚ := signedValue x.negative x.magnitude

theorem magnitude_nonneg (x : Binary64) : 0 ≤ x.magnitude := by
  rw [magnitude_eq]
  positivity

theorem magnitude_lt (finite : x.isFinite) : x.magnitude < (2 : ℚ) ^ (1024 : ℤ) := by
  have small : (x.significand : ℚ) < (2 : ℚ) ^ (53 : ℤ) := by
    have bound := x.normal.small
    simp only [binade] at bound
    norm_num
    exact_mod_cast bound
  have unit : (2 : ℚ) ^ x.unit ≤ (2 : ℚ) ^ (971 : ℤ) := zpow_le_zpow_right₀ (by norm_num) (unit_bounds finite).2
  calc x.magnitude = x.significand * (2 : ℚ) ^ x.unit := x.magnitude_eq
    _ < (2 : ℚ) ^ (53 : ℤ) * (2 : ℚ) ^ (971 : ℤ) := mul_lt_mul small unit (by positivity) (by positivity)
    _ = (2 : ℚ) ^ (1024 : ℤ) := by rw [← zpow_add₀ (by norm_num)]; norm_num

theorem le_magnitude (positive : 0 < x.magnitude) : (2 : ℚ) ^ (-1074 : ℤ) ≤ x.magnitude := by
  have units : (1 : ℚ) ≤ x.significand := by
    have nonzero : x.significand ≠ 0 := by
      intro zero
      rw [magnitude_eq, zero, Nat.cast_zero, zero_mul] at positive
      exact lt_irrefl _ positive
    exact_mod_cast Nat.pos_of_ne_zero nonzero
  have unit : (2 : ℚ) ^ (-1074 : ℤ) ≤ (2 : ℚ) ^ x.unit := zpow_le_zpow_right₀ (by norm_num) x.normal.least
  calc (2 : ℚ) ^ (-1074 : ℤ) ≤ (2 : ℚ) ^ x.unit := unit
    _ ≤ x.significand * (2 : ℚ) ^ x.unit := le_mul_of_one_le_left (by positivity) units
    _ = x.magnitude := x.magnitude_eq.symm

theorem two_pow_le_ten_pow (n : ℕ) : (2 : ℚ) ^ (3 * n) ≤ (10 : ℚ) ^ n := by
  rw [pow_mul]
  exact pow_le_pow_left₀ (by norm_num) (by norm_num) n

/-- Above the largest power of ten that is computed, a decimal is too large for a binary number. -/
theorem two_pow_le_decimal (nonzero : significand ≠ 0) (large : 400 < power) :
    (2 : ℚ) ^ (1024 : ℤ) ≤ significand * (10 : ℚ) ^ power := by
  obtain ⟨n, rfl⟩ := Int.eq_ofNat_of_zero_le (by omega : 0 ≤ power)
  have one : (1 : ℚ) ≤ significand := by exact_mod_cast Nat.pos_of_ne_zero nonzero
  calc (2 : ℚ) ^ (1024 : ℤ) ≤ (2 : ℚ) ^ (3 * n : ℕ) := by
        rw [← zpow_natCast]
        exact zpow_le_zpow_right₀ (by norm_num) (by omega)
    _ ≤ (10 : ℚ) ^ n := two_pow_le_ten_pow n
    _ ≤ significand * (10 : ℚ) ^ n := le_mul_of_one_le_left (by positivity) one
    _ = significand * (10 : ℚ) ^ (n : ℤ) := by rw [zpow_natCast]

/-- Below the smallest, it is smaller than all of them. -/
theorem decimal_lt_two_pow (nonzero : significand ≠ 0)
    (small : (Nat.log 2 significand : ℤ) + 1100 < -3 * power) :
    (significand : ℚ) * (10 : ℚ) ^ power < (2 : ℚ) ^ (-1074 : ℤ) := by
  obtain ⟨n, rfl⟩ : ∃ n : ℕ, power = -n := ⟨(-power).toNat, by omega⟩
  have positive : (0 : ℚ) < significand := by exact_mod_cast Nat.pos_of_ne_zero nonzero
  have digits : (significand : ℚ) < (2 : ℚ) ^ ((Nat.log 2 significand : ℤ) + 1) := by
    exact_mod_cast Nat.lt_pow_succ_log_self (b := 2) (by decide) significand
  have ten : (10 : ℚ) ^ (-n : ℤ) ≤ (2 : ℚ) ^ (-(3 * n : ℕ) : ℤ) := by
    rw [zpow_neg, zpow_neg, zpow_natCast, zpow_natCast]
    exact inv_anti₀ (by positivity) (two_pow_le_ten_pow n)
  calc (significand : ℚ) * (10 : ℚ) ^ (-n : ℤ)
      < (2 : ℚ) ^ ((Nat.log 2 significand : ℤ) + 1) * (2 : ℚ) ^ (-(3 * n : ℕ) : ℤ) :=
        mul_lt_mul digits ten (by positivity) (by positivity)
    _ = (2 : ℚ) ^ ((Nat.log 2 significand : ℤ) + 1 + -(3 * n : ℕ)) := (zpow_add₀ (by norm_num) _ _).symm
    _ ≤ (2 : ℚ) ^ (-1074 : ℤ) := zpow_le_zpow_right₀ (by norm_num) (by omega)

/-- The power of ten of a decimal that is exactly a binary number is not too large. -/
theorem power_le_of_magnitude (finite : x.isFinite) (nonzero : significand ≠ 0)
    (value : (significand : ℚ) * (10 : ℚ) ^ power = x.magnitude) : power ≤ 400 := by
  by_contra large
  have above := two_pow_le_decimal nonzero (not_le.mp large)
  rw [value] at above
  exact absurd (magnitude_lt finite) (not_lt.mpr above)

/-- Nor is it too small. -/
theorem le_power_of_magnitude (nonzero : significand ≠ 0)
    (value : (significand : ℚ) * (10 : ℚ) ^ power = x.magnitude) :
    -3 * power ≤ Nat.log 2 significand + 1100 := by
  by_contra small
  have positive : (0 : ℚ) < significand := by exact_mod_cast Nat.pos_of_ne_zero nonzero
  have least := le_magnitude (x := x) (by rw [← value]; positivity)
  have below := decimal_lt_two_pow nonzero (not_le.mp small)
  rw [value] at below
  exact absurd least (not_le.mpr below)

/-- A decimal that is exactly the magnitude of a number is rounded to that number. -/
theorem ofDecimal_of_magnitude (finite : x.isFinite)
    (value : (significand : ℚ) * (10 : ℚ) ^ power = x.magnitude) :
    ofDecimal x.negative significand power = x := by
  by_cases zero : significand = 0
  · have code : x.code = 0 := by
      by_contra nonzero
      have positive := magnitude_pos_iff.mpr nonzero
      rw [← value, zero, Nat.cast_zero, zero_mul] at positive
      exact lt_irrefl _ positive
    simpa [readsBack, ofDecimal, zero] using readsBack_zero code
  · have back := readsBack_of_value finite value (power_le_of_magnitude finite zero value)
      fun _ => le_power_of_magnitude zero value
    simpa [readsBack] using back

/-- A literal whose value is a binary number is rounded to a number of this value. -/
theorem rounded_of_value {l : Literal} (finite : x.isFinite) (same : x.value = l.value) :
    l.rounded.isFinite ∧ l.rounded.value = l.value := by
  have magnitude : (l.significand : ℚ) * (10 : ℚ) ^ l.power = x.magnitude := by
    have sizes := congrArg (|·|) same
    simp only [value, Literal.value, abs_signedValue _ x.magnitude_nonneg] at sizes
    rw [sizes, abs_signedValue _ (by positivity)]
  -- Two zeros have the same value, so that the sign is that of the literal.
  have back : l.rounded = ⟨l.negative, x.code, x.code_lt⟩ :=
    ofDecimal_of_magnitude (x := ⟨l.negative, x.code, x.code_lt⟩) finite magnitude
  rw [back]
  exact ⟨finite, congrArg (signedValue l.negative) magnitude.symm⟩

theorem toInt?_eq_some_iff_value {i : ℤ} (finite : x.isFinite) : x.toInt? = some i ↔ x.value = i := by
  rw [toInt?_eq_some_iff finite, value]
  have nonneg := x.magnitude_nonneg
  cases x.negative with
  | false =>
    simp only [signedValue, Bool.false_eq_true, if_false]
    constructor
    · rintro ⟨m, same, rfl⟩
      exact_mod_cast same
    · intro same
      rw [same] at nonneg ⊢
      obtain ⟨m, rfl⟩ := Int.eq_ofNat_of_zero_le (by exact_mod_cast nonneg)
      exact ⟨m, by simp, rfl⟩
  | true =>
    simp only [signedValue, if_true]
    constructor
    · rintro ⟨m, same, rfl⟩
      rw [same]
      simp
    · intro same
      have opposite : x.magnitude = (-i : ℤ) := by
        push_cast
        linarith
      rw [opposite] at nonneg ⊢
      obtain ⟨m, size⟩ := Int.eq_ofNat_of_zero_le (by exact_mod_cast nonneg)
      exact ⟨m, by rw [size]; simp, by omega⟩

/-- A whole number below `2 ^ 53` is the value of a binary number. -/
theorem exists_of_small {i : ℤ} (small : i.natAbs < 2 ^ 53) : ∃ x : Binary64, x.isFinite ∧ x.value = i := by
  have bound := roundedCode_le small
  have edge : (53 + 1023) * binade < infinityCode := by decide
  have finite : (ofQuotient (i < 0) i.natAbs 1).isFinite := decide_eq_true (bound.trans_lt edge)
  obtain ⟨m, same, exact', _⟩ := magnitude_of_whole finite rfl
  refine ⟨_, finite, ?_⟩
  rw [value, same, exact' small, Nat.cast_natAbs]
  show signedValue (decide (i < 0)) ((|i| : ℤ) : ℚ) = i
  by_cases negative : i < 0
  · simp [signedValue, negative, abs_of_neg negative]
  · simp [signedValue, negative, abs_of_nonneg (not_lt.mp negative)]

end Binary64

end FilterQuery.Decimal
