import FilterQuery.Proofs.Decimal.Literal
import FilterQuery.Proofs.Decimal.Rounding

/-!
The shortest decimals of binary numbers. Main statements: the shortest decimal of a finite number reads
back as the number (`readsBack_shortest`), and it has digits after the point exactly if the number is
not whole (`power_shortest_nonneg_iff`).
-/
namespace FilterQuery.Decimal

namespace Binary64

variable {x : Binary64} {tie : Tie}

section ReadBack

theorem readsBack_of_value {significand : ℕ} {power : ℤ} (finite : x.isFinite)
    (value : (significand : ℚ) * (10 : ℚ) ^ power = x.magnitude) (low : power ≤ 400)
    (high : significand ≠ 0 → -3 * power ≤ Nat.log 2 significand + 1100) :
    x.readsBack ⟨significand, power⟩ := by
  have scale := zpow_eq_div (b := 10) (by decide) power
  rw [Nat.cast_ofNat] at scale
  have quotient : ((significand * 10 ^ power.toNat : ℕ) : ℚ) / (10 ^ (-power).toNat : ℕ) = x.magnitude := by
    rw [← value, scale]
    push_cast
    ring
  have rounded := ofQuotient_eq finite (by positivity) quotient
  rw [readsBack, beq_iff_eq]
  show ofDecimal x.negative significand power = x
  by_cases zero : significand = 0
  · rw [ofDecimal, if_pos zero, ← rounded, zero, zero_mul]
    rfl
  · have notTiny := high zero
    rw [ofDecimal, if_neg zero, if_neg (by omega), Nat.log2_eq_log_two, if_neg (by omega)]
    exact rounded

theorem unit_bounds (finite : x.isFinite) : -1074 ≤ x.unit ∧ x.unit ≤ 971 := by
  have bound := code_lt_of_isFinite finite
  refine ⟨x.normal.least, ?_⟩
  rw [unit]
  have top : x.code / binade < 2047 := (Nat.div_lt_iff_lt_mul (by decide)).mpr bound
  omega

theorem readsBack_exactDecimal (finite : x.isFinite) : x.readsBack x.exactDecimal := by
  have bounds := unit_bounds finite
  rw [exactDecimal]
  split
  · next whole =>
    obtain ⟨unit, same⟩ := Int.eq_ofNat_of_zero_le whole
    have value : ((x.significand <<< x.unit.toNat : ℕ) : ℚ) * (10 : ℚ) ^ (0 : ℤ) = x.magnitude := by
      rw [magnitude_eq, same, zpow_zero, mul_one, Nat.shiftLeft_eq]
      push_cast
      rfl
    exact readsBack_of_value finite value (by decide) fun _ => by omega
  · next parts =>
    obtain ⟨behind, same⟩ : ∃ behind : ℕ, x.unit = -behind := ⟨(-x.unit).toNat, by omega⟩
    have count : (-x.unit).toNat = behind := by omega
    have value : ((x.significand * 5 ^ behind : ℕ) : ℚ) * (10 : ℚ) ^ x.unit = x.magnitude := by
      have ten : (10 : ℚ) = 5 * 2 := by norm_num
      rw [magnitude_eq, same, zpow_neg, zpow_neg, zpow_natCast, zpow_natCast, ten, mul_pow]
      push_cast
      field_simp
    have long : x.significand * 5 ^ behind ≠ 0 →
        -3 * x.unit ≤ Nat.log 2 (x.significand * 5 ^ behind) + 1100 := by
      intro nonzero
      have positive : 0 < x.significand := Nat.pos_of_ne_zero (left_ne_zero_of_mul nonzero)
      have four : 2 ^ (2 * behind) ≤ x.significand * 5 ^ behind := by
        calc 2 ^ (2 * behind) = 4 ^ behind := by rw [pow_mul]; norm_num
          _ ≤ 5 ^ behind := Nat.pow_le_pow_left (by decide) _
          _ ≤ x.significand * 5 ^ behind := Nat.le_mul_of_pos_left _ positive
      have log := Nat.le_log_of_pow_le (by decide) four
      omega
    rw [count]
    exact readsBack_of_value finite value (by omega) long

/-- What is found on a grid lies on it and reads back. -/
theorem withDigits?_eq_some {count : ℕ} {d : Scaled} (found : x.withDigits? tie count = some d) :
    x.readsBack d ∧ ∃ significand,
      d = ofGrid count significand (floorLog10 x.quotient.1 x.quotient.2 - count + 1) := by
  simp only [withDigits?] at found
  split at found
  · next lower upper =>
    split_ifs at found <;> cases found
    all_goals first | exact ⟨lower, _, rfl⟩ | exact ⟨upper, _, rfl⟩
  · next lower _ =>
    cases found
    exact ⟨lower, _, rfl⟩
  · next _ upper =>
    cases found
    exact ⟨upper, _, rfl⟩
  · cases found

theorem readsBack_zero (zero : x.code = 0) : x.readsBack ⟨0, 0⟩ := by
  rw [readsBack, beq_iff_eq]
  cases x
  simpa [ofDecimal, Binary64.zero] using zero.symm

/-- The shortest decimal of a number reads back as the number. -/
theorem readsBack_shortest (finite : x.isFinite) : x.readsBack (x.shortest tie) := by
  rw [shortest]
  split
  · next zero => exact readsBack_zero zero
  · cases found : (List.range 17).findSome? fun n => x.withDigits? tie (n + 1) with
    | none => exact readsBack_exactDecimal finite
    | some d =>
      obtain ⟨n, _, here⟩ := List.exists_of_findSome?_eq_some found
      exact (withDigits?_eq_some here).1

end ReadBack

section Whole

variable {m : ℕ}

theorem power_of_ofGrid {count significand : ℕ} {power : ℤ} :
    power ≤ (ofGrid count significand power).power := by
  rw [ofGrid]
  split <;> simp

/-- A whole number is found on the grid of its own digits. -/
theorem isSome_withDigits? (finite : x.isFinite) (whole : x.magnitude = m) {count : ℕ}
    (short : count ≤ 400) (own : floorLog10 x.quotient.1 x.quotient.2 = count - 1) :
    (x.withDigits? tie count).isSome := by
  have numerator : x.quotient.1 = m * x.quotient.2 := by
    have positive : (x.quotient.2 : ℚ) ≠ 0 := by exact_mod_cast x.quotient_pos.ne'
    rw [magnitude, div_eq_iff positive] at whole
    exact_mod_cast whole
  have grid : x.readsBack (ofGrid count m 0) := by
    rw [ofGrid]
    split
    · next same =>
      refine readsBack_of_value finite ?_ (by omega) fun _ => by omega
      rw [whole, same, zero_add, Nat.cast_one, one_mul, zpow_natCast]
      exact (Nat.cast_pow 10 count).symm
    · exact readsBack_of_value finite (by rw [whole, zpow_zero, mul_one]) (by decide) fun _ => by omega
  have power : floorLog10 x.quotient.1 x.quotient.2 - count + 1 = 0 := by omega
  have quotient : x.quotient.1 / x.quotient.2 = m := by
    rw [numerator, Nat.mul_div_cancel _ x.quotient_pos]
  simp only [withDigits?, power, Int.neg_zero, Int.toNat_zero, Nat.pow_eq, pow_zero, mul_one, quotient,
    grid]
  cases x.readsBack (ofGrid count (m + 1) 0) with
  | true => split_ifs <;> rfl
  | false => rfl

theorem floorLog10_quotient (positive : 0 < x.magnitude) :
    floorLog10 x.quotient.1 x.quotient.2 = Int.log 10 x.magnitude := by
  have numPos : 0 < x.quotient.1 := by
    rcases Nat.eq_zero_or_pos x.quotient.1 with zero | numPos
    · simp [magnitude, zero] at positive
    · exact numPos
  rw [floorLog10_eq numPos x.quotient_pos, magnitude]

theorem magnitude_pos_iff : 0 < x.magnitude ↔ x.code ≠ 0 := by
  have power : (0 : ℚ) < (2 : ℚ) ^ x.unit := by positivity
  rw [magnitude_eq, mul_pos_iff_of_pos_right power, Nat.cast_pos]
  rcases x.parts_cases with ⟨-, same, -⟩ | ⟨exponent, rest, -, code, same, -⟩
  · omega
  · simp only [binade] at code same
    omega

/-- What is found first in a range. -/
theorem findSome?_range {α : Type} {f : ℕ → Option α} {count : ℕ} {a : α}
    (found : (List.range count).findSome? f = some a) :
    ∃ n < count, f n = some a ∧ ∀ k < n, f k = none := by
  induction count with
  | zero => cases found
  | succ count ih =>
    rw [List.range_succ, List.findSome?_append] at found
    cases first : (List.range count).findSome? f with
    | some b =>
      rw [first, Option.some_or] at found
      obtain ⟨n, bound, here, earlier⟩ := ih (first.trans found)
      exact ⟨n, by omega, here, earlier⟩
    | none =>
      rw [first, Option.none_or, List.findSome?_singleton] at found
      refine ⟨count, by omega, found, fun k bound => ?_⟩
      exact List.findSome?_eq_none_iff.mp first k (List.mem_range.mpr bound)

theorem unit_nonneg_of_large (large : (10 : ℚ) ^ (17 : ℤ) ≤ x.magnitude) : 0 ≤ x.unit := by
  by_contra negative
  have small : (x.significand : ℚ) < (9007199254740992 : ℕ) := Nat.cast_lt.mpr x.normal.small
  have power : (2 : ℚ) ^ x.unit ≤ 1 := zpow_le_one_of_nonpos₀ (by norm_num) (by omega)
  have under : (x.significand : ℚ) * 2 ^ x.unit ≤ x.significand :=
    mul_le_of_le_one_right (by positivity) power
  rw [magnitude_eq] at large
  norm_num at large small
  exact absurd (large.trans under) (by norm_num; linarith)

/-- Of a whole number no digits after the point are needed. -/
theorem power_shortest_nonneg (finite : x.isFinite) (whole : x.magnitude = m) :
    0 ≤ (x.shortest tie).power := by
  rw [shortest]
  split
  · exact le_rfl
  · next nonzero =>
    have positive := magnitude_pos_iff.mpr nonzero
    have log := floorLog10_quotient positive
    have one : 0 ≤ Int.log 10 x.magnitude := by
      rw [← Int.zpow_le_iff_le_log (by decide) positive, zpow_zero, whole]
      rw [whole] at positive
      exact_mod_cast positive
    obtain ⟨last, same⟩ := Int.eq_ofNat_of_zero_le one
    have own : last < 17 → x.withDigits? tie (last + 1) ≠ none := by
      intro few missed
      have some : (x.withDigits? tie (last + 1)).isSome :=
        isSome_withDigits? finite whole (by omega) (by omega)
      rw [missed] at some
      cases some
    cases found : (List.range 17).findSome? fun n => x.withDigits? tie (n + 1) with
    | some d =>
      -- The digits of the number itself are tried at last, and up to there the grids are whole.
      obtain ⟨n, bound, here, earlier⟩ := findSome?_range found
      have soon : n ≤ last := by
        by_contra late
        exact own (by omega) (earlier last (by omega))
      obtain ⟨_, significand, rfl⟩ := withDigits?_eq_some here
      refine le_trans ?_ power_of_ofGrid
      omega
    | none =>
      have many : 17 ≤ last := by
        by_contra few
        exact own (by omega) (List.findSome?_eq_none_iff.mp found last (List.mem_range.mpr (by omega)))
      have large : (10 : ℚ) ^ (17 : ℤ) ≤ x.magnitude :=
        (Int.zpow_le_iff_le_log (b := 10) (by decide) positive).mpr (by omega)
      show 0 ≤ x.exactDecimal.power
      rw [exactDecimal, if_pos (unit_nonneg_of_large large)]

end Whole

section Printed

variable {m : ℕ}

/-- A number is an integer exactly if its magnitude is a whole number. -/
theorem toInt?_eq_some_iff {i : ℤ} (finite : x.isFinite) :
    x.toInt? = some i ↔ ∃ m : ℕ, x.magnitude = m ∧ i = if x.negative then -(m : ℤ) else m := by
  have positive : (x.quotient.2 : ℚ) ≠ 0 := by exact_mod_cast x.quotient_pos.ne'
  have whole : ∀ m : ℕ, x.magnitude = m ↔ x.quotient.1 = m * x.quotient.2 := by
    intro m
    rw [magnitude, div_eq_iff positive]
    norm_cast
  simp only [whole, toInt?, finite, Bool.true_and, beq_iff_eq]
  constructor
  · intro found
    split at found
    · next divides =>
      refine ⟨x.quotient.1 / x.quotient.2, ?_, (Option.some.inj found).symm⟩
      exact (Nat.div_mul_cancel (Nat.dvd_of_mod_eq_zero divides)).symm
    · cases found
  · rintro ⟨m, same, rfl⟩
    rw [same, Nat.mul_mod_left, if_pos rfl, Nat.mul_div_cancel _ x.quotient_pos]

theorem code_of_readsBack {d : Scaled} (finite : x.isFinite) (back : x.readsBack d) (whole : 0 ≤ d.power) :
    x.code = roundedCode (d.significand * 10 ^ d.power.toNat) 1 := by
  rw [readsBack, beq_iff_eq, ofDecimal] at back
  have under : (-d.power).toNat = 0 := by omega
  split_ifs at back with zero large tiny
  · rw [← back, zero, zero_mul]
    rfl
  · rw [← back] at finite
    exact absurd finite (by simp [isFinite, infinity])
  · omega
  · rw [under] at back
    exact (congrArg code back).symm

/-- The whole number in which the magnitude of a whole number is shown. -/
def printed (x : Binary64) : ℕ :=
  (x.shortest .upper).significand * 10 ^ (x.shortest .upper).power.toNat

theorem code_eq_printed (finite : x.isFinite) (whole : x.magnitude = m) :
    x.code = roundedCode x.printed 1 :=
  code_of_readsBack finite (readsBack_shortest finite) (power_shortest_nonneg finite whole)

/-- A whole number reads back from its digits without a power of ten. -/
theorem readsBack_printed (finite : x.isFinite) (whole : x.magnitude = m) : x.readsBack ⟨x.printed, 0⟩ := by
  have code := code_eq_printed finite whole
  rcases Nat.eq_zero_or_pos x.printed with zero | positive
  · rw [zero] at code ⊢
    exact readsBack_zero code
  · have rounded : ofDecimal x.negative x.printed 0 = ofQuotient x.negative (x.printed * 1) 1 := by
      rw [ofDecimal, if_neg positive.ne', if_neg (by decide), if_neg (by omega)]
      rfl
    rw [readsBack, beq_iff_eq]
    show ofDecimal x.negative x.printed 0 = x
    rw [rounded, mul_one]
    cases x
    simpa [ofQuotient] using code.symm

/-- The shortest decimal has no digits after the point exactly if the number is whole. -/
theorem power_shortest_nonneg_iff (finite : x.isFinite) :
    0 ≤ (x.shortest tie).power ↔ ∃ m : ℕ, x.magnitude = m := by
  constructor
  · intro whole
    obtain ⟨m, same, _⟩ := magnitude_of_whole finite
      (code_of_readsBack finite (readsBack_shortest finite) whole)
    exact ⟨m, same⟩
  · rintro ⟨m, same⟩
    exact power_shortest_nonneg finite same

/-- A whole number below `2 ^ 53` is shown in its own digits. -/
theorem printed_of_small (finite : x.isFinite) (whole : x.magnitude = m) (small : m < 2 ^ 53) :
    x.printed = m := by
  obtain ⟨n, same, below, above⟩ := magnitude_of_whole finite (code_eq_printed finite whole)
  have unique : m = n := by
    rw [whole] at same
    exact_mod_cast same
  omega

/-- The digits that `2 ^ 63` is shown in are above it. -/
theorem printed_edge (code : x.code = 1086 * binade) : x.printed = 9223372036854776000 := by
  have table : ∀ negative, (⟨negative, 1086 * binade, by decide⟩ : Binary64).printed =
    9223372036854776000 := by decide +kernel
  cases x
  obtain rfl := code
  exact table _

/-- What is shown as a whole number of at most 64 bits is one. -/
theorem lt_of_printed_le (finite : x.isFinite) (whole : x.magnitude = m) (few : x.printed ≤ 2 ^ 63) :
    m < 2 ^ 63 := by
  by_contra many
  have value : (m : ℚ) / (1 : ℕ) = x.magnitude := by rw [Nat.cast_one, div_one, whole]
  have own : roundedCode m 1 = x.code := congrArg code (ofQuotient_eq finite Nat.one_pos value)
  have least : 1086 * binade ≤ x.code := own ▸ le_roundedCode (Nat.le_of_not_lt many) (by decide)
  have most : x.code ≤ 1086 * binade := by
    rw [code_eq_printed finite whole]
    rcases few.lt_or_eq with less | edge
    · exact roundedCode_le less
    · rw [edge]
      decide +kernel
  have edge := printed_edge (le_antisymm most least)
  omega

end Printed

end Binary64

namespace Scaled

variable {d : Scaled}

theorem valueOf_append_zeros (digits : List Char) (count : ℕ) :
    valueOf (digits ++ List.replicate count '0') = valueOf digits * 10 ^ count := by
  rw [valueOf, Nat.ofDigitChars_append, Nat.ofDigitChars_replicate_zero, mul_comm]
  rfl

theorem valueOf_zeros_append (count : ℕ) (digits : List Char) :
    valueOf (List.replicate count '0' ++ digits) = valueOf digits := by
  rw [valueOf, Nat.ofDigitChars_append, Nat.ofDigitChars_replicate_zero, mul_zero]
  rfl

/-- A decimal without digits after the point is written with its zeros. -/
theorem plain_of_nonneg (whole : 0 ≤ d.power) (negative : Bool) :
    d.plain negative =
      ⟨negative, digitsOf d.significand ++ List.replicate d.power.toNat '0', none, none⟩ := by
  have behind : (-d.power).toNat = 0 := by omega
  simp [plain, places, behind]

/-- Other decimals are written with digits after a point, as many as it takes. -/
theorem plain_of_neg (parts : d.power < 0) (negative : Bool) :
    (d.plain negative).fraction.isSome ∧ (d.plain negative).significand = d.significand ∧
      (d.plain negative).power = d.power := by
  obtain ⟨behind, positive, same⟩ : ∃ behind : ℕ, 0 < behind ∧ d.power = -behind :=
    ⟨(-d.power).toNat, by omega, by omega⟩
  have count : (-d.power).toNat = behind := by omega
  obtain ⟨whole, fraction, shape, value, size⟩ : ∃ whole fraction, d.places = (whole, fraction) ∧
      valueOf (whole ++ fraction) = d.significand ∧ fraction.length = behind := by
    rw [places, count, if_neg positive.ne']
    split
    · refine ⟨_, _, rfl, ?_, ?_⟩
      · rw [List.take_append_drop, valueOf_digitsOf]
      · rw [List.length_drop]
        omega
    · refine ⟨_, _, rfl, ?_, ?_⟩
      · have zero : ['0'] = List.replicate 1 '0' := rfl
        rw [zero, valueOf_zeros_append, valueOf_zeros_append, valueOf_digitsOf]
      · rw [List.length_append, List.length_replicate]
        omega
  have nonempty : fraction ≠ [] := List.ne_nil_of_length_pos (size.symm ▸ positive)
  have written : d.plain negative = ⟨negative, whole, some fraction, none⟩ := by
    simp [plain, shape, nonempty]
  rw [written]
  refine ⟨rfl, value, ?_⟩
  simp [Literal.power, size, same]

end Scaled

end FilterQuery.Decimal
