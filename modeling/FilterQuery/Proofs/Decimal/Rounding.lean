import FilterQuery.Decimal.Shortest
import Mathlib

/-!
Rounding to binary numbers, over the rational numbers. Main statements: the magnitude of a number is
rounded to that number (`ofQuotient_eq`), a whole number is rounded to a whole number, and to itself
below `2 ^ 53` (`magnitude_of_whole`).
-/
namespace FilterQuery.Decimal.Binary64

section Logarithms

theorem zpow_eq_div {b : ℕ} (positive : 0 < b) (e : ℤ) :
    (b : ℚ) ^ e = (b ^ e.toNat : ℕ) / (b ^ (-e).toNat : ℕ) := by
  have nonzero : (b : ℚ) ≠ 0 := by exact_mod_cast positive.ne'
  rw [Nat.cast_pow, Nat.cast_pow, ← zpow_natCast, ← zpow_natCast, ← zpow_sub₀ nonzero]
  congr 1
  omega

/-- The logarithm of a quotient is the difference of the logarithms of its parts, or one less. -/
theorem log_eq_of_guess {b num den : ℕ} (base : 1 < b) (numPos : 0 < num) (denPos : 0 < den)
    {guess : ℤ} (near : guess = (Nat.log b num : ℤ) - Nat.log b den) :
    (if den * b ^ guess.toNat ≤ num * b ^ (-guess).toNat then guess else guess - 1) =
      Int.log b ((num : ℚ) / den) := by
  have basePos : 0 < b := by omega
  have nonzero : (b : ℚ) ≠ 0 := by exact_mod_cast basePos.ne'
  have denQ : (0 : ℚ) < den := by exact_mod_cast denPos
  have positive : (0 : ℚ) < num / den := by positivity
  have test : den * b ^ guess.toNat ≤ num * b ^ (-guess).toNat ↔ (b : ℚ) ^ guess ≤ num / den := by
    rw [zpow_eq_div basePos, div_le_div_iff₀ (by positivity) denQ, mul_comm den]
    norm_cast
  have numLow : ((b : ℚ) ^ Nat.log b num) ≤ num := by exact_mod_cast Nat.pow_log_le_self b numPos.ne'
  have numHigh : (num : ℚ) < (b : ℚ) ^ (Nat.log b num + 1) := by
    exact_mod_cast Nat.lt_pow_succ_log_self base num
  have denLow : ((b : ℚ) ^ Nat.log b den) ≤ den := by exact_mod_cast Nat.pow_log_le_self b denPos.ne'
  have denHigh : (den : ℚ) < (b : ℚ) ^ (Nat.log b den + 1) := by
    exact_mod_cast Nat.lt_pow_succ_log_self base den
  have below : (b : ℚ) ^ (guess - 1) ≤ num / den := by
    have parts : (b : ℚ) ^ (guess - 1) = (b : ℚ) ^ Nat.log b num / (b : ℚ) ^ (Nat.log b den + 1) := by
      rw [← zpow_natCast, ← zpow_natCast, ← zpow_sub₀ nonzero]
      congr 1
      omega
    rw [parts]
    exact div_le_div₀ (by positivity) numLow denQ denHigh.le
  have above : (num : ℚ) / den < (b : ℚ) ^ (guess + 1) := by
    have parts : (b : ℚ) ^ (guess + 1) = (b : ℚ) ^ (Nat.log b num + 1) / (b : ℚ) ^ Nat.log b den := by
      rw [← zpow_natCast, ← zpow_natCast, ← zpow_sub₀ nonzero]
      congr 1
      omega
    rw [parts]
    exact div_lt_div₀ numHigh denLow (by positivity) (by positivity)
  rw [Int.zpow_le_iff_le_log base positive] at below
  rw [Int.lt_zpow_iff_log_lt base positive] at above
  rw [Int.zpow_le_iff_le_log base positive] at test
  split <;> omega

variable {num den : ℕ}

theorem floorLog2_eq (numPos : 0 < num) (denPos : 0 < den) :
    floorLog2 num den = Int.log 2 ((num : ℚ) / den) := by
  rw [← log_eq_of_guess (by decide) numPos denPos rfl]
  simp only [floorLog2, Nat.shiftLeft_eq, Nat.log2_eq_log_two]

theorem length_digitsOf {n : ℕ} (positive : 0 < n) : (digitsOf n).length = Nat.log 10 n + 1 := by
  have short : (digitsOf n).length ≤ Nat.log 10 n + 1 :=
    (Nat.length_toDigits_le_iff (by decide) (by omega)).mpr (Nat.lt_pow_succ_log_self (by decide) n)
  have long : ¬(digitsOf n).length ≤ Nat.log 10 n := by
    intro short
    by_cases none : Nat.log 10 n = 0
    · rw [none] at short
      exact absurd (List.length_eq_zero_iff.mp (Nat.le_zero.mp short)) Nat.toDigits_ne_nil
    · have small := (Nat.length_toDigits_le_iff (by decide) (by omega)).mp short
      exact absurd (Nat.pow_log_le_self 10 positive.ne') (by omega)
  omega

theorem floorLog10_eq (numPos : 0 < num) (denPos : 0 < den) :
    floorLog10 num den = Int.log 10 ((num : ℚ) / den) := by
  rw [← log_eq_of_guess (by decide) numPos denPos rfl]
  simp only [floorLog10, length_digitsOf numPos, length_digitsOf denPos]
  push_cast
  simp only [add_sub_add_right_eq_sub]
  rfl

end Logarithms

section Magnitude

/-- A whole number of units as numbers have it: of 53 bits, or of fewer if the unit is the least. -/
structure Normal (units : ℕ) (unit : ℤ) : Prop where
  small : units < 2 * binade
  least : -1074 ≤ unit
  large : binade ≤ units ∨ unit = -1074

def codeOf (units : ℕ) (unit : ℤ) : ℕ := (unit + 1074).toNat * binade + units

theorem parts_cases (x : Binary64) :
    (x.code < binade ∧ x.significand = x.code ∧ x.unit = -1074) ∨
      ∃ exponent rest, rest < binade ∧ x.code = (exponent + 1) * binade + rest ∧
        x.significand = binade + rest ∧ x.unit = exponent - 1074 := by
  by_cases small : x.code < binade
  · refine .inl ⟨small, if_pos small, ?_⟩
    rw [unit, Nat.div_eq_of_lt small]
    rfl
  · have positive : 1 ≤ x.code / binade := (Nat.one_le_div_iff (by decide)).mpr (by omega)
    refine .inr ⟨x.code / binade - 1, x.code % binade, Nat.mod_lt _ (by decide), ?_, if_neg small, ?_⟩
    · rw [Nat.sub_add_cancel positive, Nat.div_add_mod']
    · rw [unit]
      omega

theorem normal (x : Binary64) : Normal x.significand x.unit := by
  rcases x.parts_cases with ⟨small, same, least⟩ | ⟨exponent, rest, bound, -, same, unit⟩
  · exact ⟨by omega, by omega, .inr least⟩
  · exact ⟨by omega, by omega, .inl (by omega)⟩

theorem code_eq (x : Binary64) : x.code = codeOf x.significand x.unit := by
  rcases x.parts_cases with ⟨small, same, least⟩ | ⟨exponent, rest, bound, code, same, unit⟩
  · rw [codeOf, same, least]
    simp
  · have power : (x.unit + 1074).toNat = exponent := by omega
    rw [codeOf, same, power, code]
    ring

theorem Normal.eq_of_code {units : ℕ} {unit : ℤ} (form : Normal units unit) {x : Binary64}
    (code : x.code = codeOf units unit) : x.significand = units ∧ x.unit = unit := by
  have other := x.normal
  rw [x.code_eq] at code
  obtain ⟨small, least, large⟩ := form
  obtain ⟨otherSmall, otherLeast, otherLarge⟩ := other
  simp only [codeOf, binade] at *
  omega

/-- The magnitude of a number. -/
def magnitude (x : Binary64) : ℚ := (x.quotient.1 : ℚ) / x.quotient.2

theorem quotient_pos (x : Binary64) : 0 < x.quotient.2 := by
  simp [quotient, Nat.shiftLeft_eq]

theorem magnitude_eq (x : Binary64) : x.magnitude = x.significand * (2 : ℚ) ^ x.unit := by
  have power := zpow_eq_div (b := 2) (by decide) x.unit
  rw [Nat.cast_ofNat] at power
  rw [magnitude, power, quotient]
  simp only [Nat.shiftLeft_eq, one_mul]
  push_cast
  ring

end Magnitude

section Round

variable {num den : ℕ}

theorem roundHalfEven_mul (k : ℕ) (denPos : 0 < den) : roundHalfEven (k * den) den = k := by
  simp [roundHalfEven, Nat.mul_div_cancel _ denPos, denPos]

theorem roundHalfEven_bounds (num den : ℕ) :
    num / den ≤ roundHalfEven num den ∧ roundHalfEven num den ≤ num / den + 1 := by
  simp only [roundHalfEven]
  split
  · omega
  · split <;> omega

theorem roundedCode_eq (numPos : 0 < num) (denPos : 0 < den) {unit : ℤ}
    (chosen : unit = max (Int.log 2 ((num : ℚ) / den) - 52) (-1074)) :
    roundedCode num den =
      min (codeOf (roundHalfEven (num * 2 ^ (-unit).toNat) (den * 2 ^ unit.toNat)) unit)
        infinityCode := by
  rw [roundedCode, if_neg numPos.ne', ← floorLog2_eq numPos denPos] at *
  simp only [← chosen, Nat.shiftLeft_eq, codeOf]

/-- The unit of a number is told by its magnitude. -/
theorem Normal.unit_eq {units : ℕ} {unit : ℤ} (form : Normal units unit) (positive : 0 < units) {q : ℚ}
    (value : q = units * (2 : ℚ) ^ unit) : unit = max (Int.log 2 q - 52) (-1074) := by
  have unitsQ : (0 : ℚ) < units := by exact_mod_cast positive
  have valuePos : 0 < q := by rw [value]; positivity
  have high : Int.log 2 q < 53 + unit := by
    rw [← Int.lt_zpow_iff_log_lt (by decide) valuePos, value, Nat.cast_ofNat,
      zpow_add₀ (by norm_num)]
    have small : (units : ℚ) < 2 ^ (53 : ℤ) := by
      have bound := form.small
      simp only [binade] at bound
      norm_num
      exact_mod_cast bound
    gcongr
  have low : binade ≤ units → 52 + unit ≤ Int.log 2 q := by
    intro large
    rw [← Int.zpow_le_iff_le_log (by decide) valuePos, value, Nat.cast_ofNat,
      zpow_add₀ (by norm_num)]
    have bound : (2 : ℚ) ^ (52 : ℤ) ≤ units := by
      simp only [binade] at large
      norm_num
      exact_mod_cast large
    gcongr
  have least := form.least
  rcases form.large with large | same
  · have := low large
    omega
  · omega

/-- What is a whole number of units in the form that numbers have is rounded to just that. -/
theorem Normal.roundedCode {units : ℕ} {unit : ℤ} (form : Normal units unit) (positive : 0 < units)
    (denPos : 0 < den) (value : (num : ℚ) / den = units * (2 : ℚ) ^ unit) :
    roundedCode num den = min (codeOf units unit) infinityCode := by
  have denQ : (0 : ℚ) < den := by exact_mod_cast denPos
  have chosen := form.unit_eq positive value
  have whole : num * 2 ^ (-unit).toNat = units * (den * 2 ^ unit.toNat) := by
    have power := zpow_eq_div (b := 2) (by decide) unit
    rw [Nat.cast_ofNat] at power
    rw [power, div_eq_iff denQ.ne'] at value
    have cleared : (num : ℚ) * (2 ^ (-unit).toNat : ℕ) = units * (den * (2 ^ unit.toNat : ℕ)) := by
      rw [value]
      field_simp
    exact_mod_cast cleared
  have numPos : 0 < num := by
    have product : 0 < num * 2 ^ (-unit).toNat := by rw [whole]; positivity
    exact Nat.pos_of_mul_pos_right product
  rw [roundedCode_eq numPos denPos chosen, whole, roundHalfEven_mul _ (by positivity)]

/-- In units of the size that is chosen for it, a quotient is below two to the power of 53. -/
theorem scaled_lt (numPos : 0 < num) (denPos : 0 < den) {unit : ℤ}
    (chosen : unit = max (Int.log 2 ((num : ℚ) / den) - 52) (-1074)) :
    num * 2 ^ (-unit).toNat < 2 * binade * (den * 2 ^ unit.toNat) := by
  have denQ : (0 : ℚ) < den := by exact_mod_cast denPos
  have valuePos : (0 : ℚ) < num / den := by positivity
  have scale := zpow_eq_div (b := 2) (by decide) unit
  have bound := (Int.lt_zpow_iff_log_lt (b := 2) (x := unit + 53) (by decide) valuePos).mpr (by omega)
  rw [zpow_add₀ (by norm_num), scale, div_mul_eq_mul_div, div_lt_div_iff₀ denQ (by positivity)] at bound
  have cleared : num * 2 ^ (-unit).toNat < 2 ^ unit.toNat * 2 ^ 53 * den := by exact_mod_cast bound
  calc num * 2 ^ (-unit).toNat < 2 ^ unit.toNat * 2 ^ 53 * den := cleared
    _ = _ := by simp only [binade]; ring

/-- What is rounded lies between two neighbouring powers of two, and so does what it is rounded to. -/
theorem roundedCode_bounds (numPos : 0 < num) (denPos : 0 < den) {power : ℤ}
    (log : Int.log 2 ((num : ℚ) / den) = power) (normal : -1022 ≤ power) :
    min ((power + 1023).toNat * binade) infinityCode ≤ roundedCode num den ∧
      roundedCode num den ≤ (power + 1024).toNat * binade := by
  have denQ : (0 : ℚ) < den := by exact_mod_cast denPos
  have valuePos : (0 : ℚ) < num / den := by positivity
  obtain ⟨unit, rfl⟩ : ∃ unit, power = unit + 52 := ⟨power - 52, by omega⟩
  have chosen : unit = max (Int.log 2 ((num : ℚ) / den) - 52) (-1074) := by omega
  have scale := zpow_eq_div (b := 2) (by decide) unit
  have low : binade * (den * 2 ^ unit.toNat) ≤ num * 2 ^ (-unit).toNat := by
    have bound := (Int.zpow_le_iff_le_log (by decide) valuePos).mpr log.ge
    rw [zpow_add₀ (by norm_num), scale, div_mul_eq_mul_div, div_le_div_iff₀ (by positivity) denQ] at bound
    have cleared : 2 ^ unit.toNat * 2 ^ 52 * den ≤ num * 2 ^ (-unit).toNat := by exact_mod_cast bound
    calc binade * (den * 2 ^ unit.toNat) = 2 ^ unit.toNat * 2 ^ 52 * den := by simp only [binade]; ring
      _ ≤ _ := cleared
  have high := scaled_lt numPos denPos chosen
  have scaledPos : 0 < den * 2 ^ unit.toNat := by positivity
  obtain ⟨notLess, notMore⟩ := roundHalfEven_bounds (num * 2 ^ (-unit).toNat) (den * 2 ^ unit.toNat)
  have least := ((Nat.le_div_iff_mul_le scaledPos).mpr low).trans notLess
  have most := notMore.trans ((Nat.div_lt_iff_lt_mul scaledPos).mpr high)
  have one : (unit + 52 + 1023).toNat = (unit + 1074).toNat + 1 := by omega
  have two : (unit + 52 + 1024).toNat = (unit + 1074).toNat + 2 := by omega
  rw [roundedCode_eq numPos denPos chosen, codeOf, one, two, Nat.add_mul, Nat.add_mul, one_mul]
  exact ⟨min_le_min_right _ (Nat.add_le_add_left least _),
    (min_le_left _ _).trans (Nat.add_le_add_left most _)⟩

theorem log_natCast_one (n : ℕ) : Int.log 2 ((n : ℚ) / (1 : ℕ)) = Nat.log 2 n := by
  rw [Nat.cast_one, div_one, Int.log_natCast]

theorem le_roundedCode {n power : ℕ} (large : 2 ^ power ≤ n) (finite : power ≤ 1024) :
    (power + 1023) * binade ≤ roundedCode n 1 := by
  have positive : 0 < n := lt_of_lt_of_le (by positivity) large
  have log := Nat.le_log_of_pow_le (by decide) large
  have bounds := (roundedCode_bounds positive Nat.one_pos (log_natCast_one n) (by omega)).1
  refine le_trans (le_min ?_ ?_) bounds
  · exact Nat.mul_le_mul_right _ (by omega)
  · exact Nat.mul_le_mul_right _ (by omega)

theorem roundedCode_le {n power : ℕ} (small : n < 2 ^ power) :
    roundedCode n 1 ≤ (power + 1023) * binade := by
  rcases Nat.eq_zero_or_pos n with rfl | positive
  · exact Nat.zero_le _
  · have log := Nat.log_lt_of_lt_pow positive.ne' small
    have bounds := (roundedCode_bounds positive Nat.one_pos (log_natCast_one n) (by omega)).2
    exact bounds.trans (Nat.mul_le_mul_right _ (by omega))

end Round

section Numbers

variable {x : Binary64}

theorem code_lt_of_isFinite (finite : x.isFinite) : x.code < infinityCode := by
  simpa [isFinite] using finite

/-- A magnitude is rounded to the number it is the magnitude of. -/
theorem ofQuotient_eq {num den : ℕ} (finite : x.isFinite) (denPos : 0 < den)
    (value : (num : ℚ) / den = x.magnitude) : ofQuotient x.negative num den = x := by
  have bound := code_lt_of_isFinite finite
  have denQ : (den : ℚ) ≠ 0 := by exact_mod_cast denPos.ne'
  rw [magnitude_eq] at value
  have code : roundedCode num den = x.code := by
    rcases Nat.eq_zero_or_pos x.significand with zero | positive
    · have none : num = 0 := by
        rw [zero, Nat.cast_zero, zero_mul, div_eq_zero_iff] at value
        exact_mod_cast value.resolve_right denQ
      have least := x.normal.large.resolve_left (by simp [zero, binade])
      rw [none, roundedCode, if_pos rfl, x.code_eq, codeOf, zero, least]
      rfl
    · rw [x.normal.roundedCode positive denPos value, ← x.code_eq]
      omega
  cases x
  simpa [ofQuotient] using code

/-- A number of at most 53 bits is a whole number of units. -/
theorem exists_normal {n : ℕ} (positive : 0 < n) (small : n < 2 ^ 53) :
    ∃ shift : ℕ, Normal (n * 2 ^ shift) (-shift) := by
  have fits : Nat.log 2 n ≤ 52 := Nat.lt_succ_iff.mp (Nat.log_lt_of_lt_pow positive.ne' small)
  have low := Nat.pow_log_le_self 2 positive.ne'
  have high := Nat.lt_pow_succ_log_self (b := 2) (by decide) n
  obtain ⟨shift, split⟩ : ∃ shift, 52 = Nat.log 2 n + shift := ⟨52 - Nat.log 2 n, by omega⟩
  have least : binade = 2 ^ Nat.log 2 n * 2 ^ shift := by
    rw [← pow_add, ← split]
    rfl
  refine ⟨shift, ?_, by omega, .inl ?_⟩
  · rw [least, ← mul_assoc, ← pow_succ']
    gcongr
  · rw [least]
    gcongr

theorem magnitude_of_small {n : ℕ} (positive : 0 < n) (small : n < 2 ^ 53) (finite : x.isFinite)
    (code : x.code = roundedCode n 1) : x.magnitude = n := by
  obtain ⟨shift, form⟩ := exists_normal positive small
  have value : (n : ℚ) / (1 : ℕ) = (n * 2 ^ shift : ℕ) * (2 : ℚ) ^ (-shift : ℤ) := by
    rw [zpow_neg, zpow_natCast]
    push_cast
    field_simp
  have rounded := form.roundedCode (by positivity) Nat.one_pos value
  have bound := code_lt_of_isFinite finite
  obtain ⟨units, unit⟩ := form.eq_of_code (x := x) (by rw [code] at bound; omega)
  rw [magnitude_eq, units, unit, ← value, Nat.cast_one, div_one]

theorem magnitude_of_large {n : ℕ} (large : 2 ^ 53 ≤ n) (finite : x.isFinite)
    (code : x.code = roundedCode n 1) : ∃ m : ℕ, x.magnitude = m ∧ 2 ^ 53 ≤ m := by
  have bound := code_lt_of_isFinite finite
  have least := le_roundedCode large (by decide)
  rw [← code] at least
  rcases x.parts_cases with ⟨under, -, -⟩ | ⟨exponent, rest, below, parts, units, unit⟩
  · simp only [binade, infinityCode] at *
    omega
  · have whole : x.unit = (exponent - 1074 : ℕ) ∧ 1 ≤ exponent - 1074 := by
      simp only [binade, infinityCode] at *
      omega
    refine ⟨x.significand * 2 ^ (exponent - 1074), ?_, ?_⟩
    · rw [magnitude_eq, whole.1, zpow_natCast]
      push_cast
      rfl
    · have power : 2 ^ 1 ≤ 2 ^ (exponent - 1074) := Nat.pow_le_pow_right (by decide) whole.2
      have bits : 2 ^ 52 ≤ x.significand := by
        simp only [binade] at *
        omega
      calc 2 ^ 53 = 2 ^ 52 * 2 ^ 1 := by norm_num
        _ ≤ x.significand * 2 ^ (exponent - 1074) := Nat.mul_le_mul bits power

/-- A whole number is rounded to a whole number, and below `2 ^ 53` to itself. -/
theorem magnitude_of_whole {n : ℕ} (finite : x.isFinite) (code : x.code = roundedCode n 1) :
    ∃ m : ℕ, x.magnitude = m ∧ (n < 2 ^ 53 → m = n) ∧ (2 ^ 53 ≤ n → 2 ^ 53 ≤ m) := by
  by_cases small : n < 2 ^ 53
  · refine ⟨n, ?_, fun _ => rfl, id⟩
    rcases Nat.eq_zero_or_pos n with rfl | positive
    · rw [roundedCode, if_pos rfl] at code
      simp [magnitude_eq, significand, code, binade]
    · exact magnitude_of_small positive small finite code
  · obtain ⟨m, same, large⟩ := magnitude_of_large (Nat.le_of_not_lt small) finite code
    exact ⟨m, same, by omega, fun _ => large⟩

end Numbers

end FilterQuery.Decimal.Binary64
