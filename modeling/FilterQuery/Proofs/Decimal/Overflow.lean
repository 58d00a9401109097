import FilterQuery.Proofs.Decimal.Exact

/-!
The numbers that are too large for a binary number. Main statement: a literal is rounded to a finite number
exactly if its value is below the middle between the largest number and `2 ^ 1024`
(`Literal.isFinite_rounded_iff`).
-/
namespace FilterQuery.Decimal

namespace Binary64

/-- The middle between the largest number and `2 ^ 1024`, from where on all is rounded to infinity. -/
def overflowEdge : ℚ := 2 ^ 1024 - 2 ^ 970

theorem overflowEdge_eq : overflowEdge = 18014398509481983 * 2 ^ 970 := by
  have top : (2 : ℚ) ^ 1024 = 2 ^ 54 * 2 ^ 970 := by rw [← pow_add]
  rw [overflowEdge, top]
  generalize (2 : ℚ) ^ 970 = unit
  norm_num
  ring

theorem two_pow_lt_overflowEdge : (2 : ℚ) ^ (1023 : ℤ) < overflowEdge := by
  have parts : (2 : ℚ) ^ (1023 : ℤ) = 2 ^ 53 * 2 ^ 970 := by rw [← pow_add]; rfl
  rw [parts, overflowEdge_eq]
  gcongr
  norm_num

theorem overflowEdge_lt_two_pow : overflowEdge < (2 : ℚ) ^ (1024 : ℤ) := by
  have parts : (2 : ℚ) ^ (1024 : ℤ) = 2 ^ 54 * 2 ^ 970 := by rw [← pow_add]; rfl
  rw [parts, overflowEdge_eq]
  gcongr
  norm_num

section Units

variable {num den : ℕ}

/-- A quotient is rounded to at most an odd number exactly if it is below the middle to the next one, as
the middle itself goes up to the even number. -/
theorem roundHalfEven_le_iff {k : ℕ} (odd : k % 2 = 1) (denPos : 0 < den) :
    roundHalfEven num den ≤ k ↔ 2 * num < (2 * k + 1) * den := by
  have parts := Nat.div_add_mod num den
  have rest := Nat.mod_lt num denPos
  have edge : (2 * k + 1) * den = 2 * (den * k) + den := by ring
  rw [edge, roundHalfEven]
  rcases lt_trichotomy (num / den) k with less | same | more
  · have below : den * (num / den + 1) ≤ den * k := Nat.mul_le_mul_left den less
    rw [Nat.mul_add_one] at below
    split_ifs <;> omega
  · rw [same] at parts ⊢
    split_ifs <;> omega
  · have above : den * (k + 1) ≤ den * (num / den) := Nat.mul_le_mul_left den more
    rw [Nat.mul_add_one] at above
    split_ifs <;> omega

/-- The edge in units of the largest numbers: an odd number of halves. -/
theorem lt_overflowEdge_iff (denPos : 0 < den) :
    (num : ℚ) / den < overflowEdge ↔ 2 * num < (2 * (2 * binade - 1) + 1) * (den * 2 ^ 971) := by
  have denQ : (0 : ℚ) < den := by exact_mod_cast denPos
  have half : ((2 ^ 971 : ℕ) : ℚ) = 2 ^ 970 * 2 := by rw [← pow_succ, Nat.cast_pow, Nat.cast_ofNat]
  rw [div_lt_iff₀ denQ, ← Nat.cast_lt (α := ℚ), overflowEdge_eq, Nat.cast_mul, Nat.cast_mul, Nat.cast_mul, half]
  generalize (2 : ℚ) ^ 970 = unit
  simp only [binade]
  norm_num
  constructor <;> intro less <;> linarith

theorem roundedCode_lt_infinity (numPos : 0 < num) (denPos : 0 < den)
    (small : Int.log 2 ((num : ℚ) / den) < 1023) : roundedCode num den < infinityCode := by
  -- The unit is smaller than that of the largest numbers.
  have scaled := scaled_lt numPos denPos rfl
  have most := (roundHalfEven_bounds _ _).2.trans ((Nat.div_lt_iff_lt_mul (by positivity)).mpr scaled)
  rw [roundedCode_eq numPos denPos rfl, codeOf]
  refine (min_le_left _ _).trans_lt ?_
  simp only [binade, infinityCode] at most ⊢
  omega

theorem infinity_le_roundedCode (numPos : 0 < num) (denPos : 0 < den)
    (large : 1023 < Int.log 2 ((num : ℚ) / den)) : infinityCode ≤ roundedCode num den := by
  have bounds := (roundedCode_bounds numPos denPos rfl (by omega)).1
  have top : infinityCode ≤ (Int.log 2 ((num : ℚ) / den) + 1023).toNat * binade :=
    Nat.mul_le_mul_right binade (by omega)
  rw [min_eq_right top] at bounds
  exact bounds

/-- A quotient is rounded to a finite number exactly if it is below the edge. -/
theorem roundedCode_lt_infinity_iff (denPos : 0 < den) :
    roundedCode num den < infinityCode ↔ (num : ℚ) / den < overflowEdge := by
  rcases Nat.eq_zero_or_pos num with rfl | numPos
  · refine iff_of_true (by simp [roundedCode, infinityCode, binade]) ?_
    rw [Nat.cast_zero, zero_div]
    exact lt_trans (by positivity) two_pow_lt_overflowEdge
  · have valuePos : (0 : ℚ) < num / den := by positivity
    rcases lt_trichotomy (Int.log 2 ((num : ℚ) / den)) 1023 with less | same | more
    · have small : (num : ℚ) / den < (2 : ℚ) ^ (1023 : ℤ) := (Int.lt_zpow_iff_log_lt (by decide) valuePos).mpr less
      exact iff_of_true (roundedCode_lt_infinity numPos denPos less) (small.trans two_pow_lt_overflowEdge)
    · -- The unit is that of the largest numbers, and their number of units is odd.
      have unit : max (Int.log 2 ((num : ℚ) / den) - 52) (-1074) = 971 := by omega
      have units : roundHalfEven num (den * 2 ^ 971) ≤ 2 * binade - 1 ↔ _ :=
        roundHalfEven_le_iff (by decide) (by positivity)
      rw [lt_overflowEdge_iff denPos, ← units, roundedCode_eq numPos denPos unit.symm, codeOf]
      simp only [Int.reduceNeg, Int.reduceToNat, Int.reduceAdd, pow_zero, mul_one, binade, infinityCode]
      omega
    · have large : (2 : ℚ) ^ (1024 : ℤ) ≤ (num : ℚ) / den := (Int.zpow_le_iff_le_log (by decide) valuePos).mpr more
      exact iff_of_false (not_lt.mpr (infinity_le_roundedCode numPos denPos more))
        (not_lt.mpr (overflowEdge_lt_two_pow.le.trans large))

end Units

end Binary64

open Binary64

/-- A literal is rounded to a finite number exactly if its value is below the edge in magnitude. -/
theorem Literal.isFinite_rounded_iff (l : Literal) : l.rounded.isFinite ↔ |l.value| < overflowEdge := by
  have size : |l.value| = l.significand * (10 : ℚ) ^ l.power := abs_signedValue l.negative (by positivity)
  have positive : 0 < overflowEdge := lt_trans (by positivity) two_pow_lt_overflowEdge
  rw [size, rounded, ofDecimal]
  by_cases zero : l.significand = 0
  · rw [if_pos zero, zero, Nat.cast_zero, zero_mul]
    exact iff_of_true (by simp [isFinite, Binary64.zero, infinityCode, binade]) positive
  · rw [if_neg zero]
    by_cases large : 400 < l.power
    · rw [if_pos large]
      have above := overflowEdge_lt_two_pow.le.trans (two_pow_le_decimal zero large)
      exact iff_of_false (by simp [isFinite, infinity]) (not_lt.mpr above)
    · rw [if_neg large, Nat.log2_eq_log_two]
      by_cases small : (Nat.log 2 l.significand : ℤ) + 1100 < -3 * l.power
      · rw [if_pos small]
        have below : (2 : ℚ) ^ (-1074 : ℤ) < (2 : ℚ) ^ (1023 : ℤ) := zpow_lt_zpow_right₀ (by norm_num) (by norm_num)
        refine iff_of_true (by simp [isFinite, Binary64.zero, infinityCode, binade]) ?_
        exact (decimal_lt_two_pow zero small).trans (below.trans two_pow_lt_overflowEdge)
      · rw [if_neg small]
        have scale := zpow_eq_div (b := 10) (by decide) l.power
        have quotient : (l.significand : ℚ) * (10 : ℚ) ^ l.power =
            (l.significand * 10 ^ l.power.toNat : ℕ) / (10 ^ (-l.power).toNat : ℕ) := by
          rw [Nat.cast_ofNat] at scale
          rw [scale, Nat.cast_mul, mul_div_assoc]
        rw [quotient, ← roundedCode_lt_infinity_iff (by positivity), isFinite, decide_eq_true_iff]
        rfl

end FilterQuery.Decimal
