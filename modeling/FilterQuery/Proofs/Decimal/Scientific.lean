import FilterQuery.Proofs.Decimal.Shortest

/-!
Numbers as JSON writes them. Main statements: what is written has a point or an exponent
(`literal_hasPoint`), its digits stand as JSON has them (`strict_literal`), and it reads back as the
number that was written (`ofDecimal_literal`).
-/
namespace FilterQuery.Decimal

namespace Literal

/-- The digits stand as JSON has them: before the point a zero alone or digits that start with
another, and after it at least one if there is a point. -/
structure Strict (l : Literal) : Prop where
  whole : AllDigits l.whole
  nonempty : l.whole ≠ []
  lead : l.whole.head? = some '0' → l.whole = ['0']
  fraction : ∀ digits ∈ l.fraction, AllDigits digits ∧ digits ≠ []

/-- Whether a literal is told from an integer by a point or an exponent. -/
def hasPoint (l : Literal) : Bool := l.fraction.isSome || l.exponent.isSome

end Literal

theorem eq_zero_of_head?_digitsOf {n : ℕ} (zero : (digitsOf n).head? = some '0') : n = 0 := by
  induction n using Nat.strong_induction_on with
  | _ n ih =>
    by_cases small : n < 10
    · have table : ∀ n < 10, (digitsOf n).head? = some '0' → n = 0 := by decide
      exact table n small zero
    · rw [digitsOf, Nat.toDigits_of_base_le (by decide) (by omega),
        List.head?_append_of_ne_nil _ Nat.toDigits_ne_nil] at zero
      have fewer := ih (n / 10) (by omega) zero
      omega

theorem Literal.Strict.written {l : Literal} (strict : l.Strict) : l.Written where
  whole := strict.whole
  fraction := by
    cases shape : l.fraction with
    | none => simp [AllDigits]
    | some digits => exact (strict.fraction digits shape).1
  nonempty := .inl strict.nonempty

theorem Literal.strict_ofInt (i : ℤ) : (ofInt i).Strict where
  whole := allDigits_digitsOf _
  nonempty := digitsOf_ne_nil _
  lead := by
    intro zero
    simp [ofInt, eq_zero_of_head?_digitsOf zero, digitsOf]
  fraction := by simp [ofInt]

namespace Scaled

variable {d : Scaled}

/-- Whether a decimal is written without an exponent. -/
def Positional (d : Scaled) : Prop := -5 ≤ d.leadingPower ∧ d.leadingPower < 16

theorem scientific_positional (negative : Bool) (positional : d.Positional) : d.scientific negative =
    ⟨negative, d.places.1, some (if d.places.2.isEmpty then ['0'] else d.places.2), none⟩ :=
  if_pos positional

theorem scientific_exponent (negative : Bool) (positional : ¬d.Positional) : d.scientific negative =
    ⟨negative, (digitsOf d.significand).take 1,
      if (digitsOf d.significand).length = 1 then none else some ((digitsOf d.significand).drop 1),
      some d.leadingPower⟩ :=
  if_neg positional

theorem lead_places (reduced : d.significand = 0 → d.power = 0) (zero : d.places.1.head? = some '0') :
    d.places.1 = ['0'] := by
  have nonempty := List.length_pos_iff.mpr (digitsOf_ne_nil d.significand)
  unfold places at zero ⊢
  simp only at zero ⊢
  split at zero
  · rw [List.head?_append_of_ne_nil _ (digitsOf_ne_nil _)] at zero
    have noValue := eq_zero_of_head?_digitsOf zero
    simp [noValue, reduced noValue, digitsOf]
  · split at zero
    · next behind short =>
      rw [List.head?_take, if_neg (by omega)] at zero
      have single : (digitsOf d.significand).length = 1 := by
        rw [eq_zero_of_head?_digitsOf zero]
        rfl
      omega
    · next behind long => rw [if_neg behind, if_neg long]

/-- A decimal is written with the digits that JSON has. -/
theorem strict_scientific (negative : Bool) (reduced : d.significand = 0 → d.power = 0) :
    (d.scientific negative).Strict := by
  have digits := allDigits_digitsOf d.significand
  by_cases positional : d.Positional
  · obtain ⟨before, behind, some⟩ := d.allDigits_places
    rw [scientific_positional negative positional]
    refine ⟨before, some, lead_places reduced, fun places member => ?_⟩
    cases member
    split
    · exact ⟨by simp [AllDigits], by simp⟩
    · next more => exact ⟨behind, by simpa using more⟩
  · obtain ⟨first, others, shape⟩ := List.exists_cons_of_ne_nil (digitsOf_ne_nil d.significand)
    rw [scientific_exponent negative positional]
    rw [shape] at digits ⊢
    refine ⟨fun c member => digits c (List.mem_of_mem_take member), by simp, by simp, ?_⟩
    intro places member
    split at member
    · cases member
    · next more =>
      cases member
      exact ⟨fun c member => digits c (List.mem_of_mem_drop member), by simpa using more⟩

/-- A decimal with digits after the point is written with just its digits, and so is every decimal that
is written with an exponent. -/
theorem scientific_exact (negative : Bool) (parts : d.Positional → d.power < 0) :
    (d.scientific negative).hasPoint ∧ (d.scientific negative).significand = d.significand ∧
      (d.scientific negative).power = d.power := by
  by_cases positional : d.Positional
  · obtain ⟨point, significand, power⟩ := plain_of_neg (parts positional) negative
    have same : d.scientific negative = d.plain negative := by
      have more : d.places.2 ≠ [] := by simpa [plain] using point
      rw [scientific_positional negative positional]
      simp [plain, more]
    rw [same]
    exact ⟨by simp [Literal.hasPoint, point], significand, power⟩
  · obtain ⟨first, others, shape⟩ := List.exists_cons_of_ne_nil (digitsOf_ne_nil d.significand)
    have value : valueOf (first :: others) = d.significand := shape ▸ valueOf_digitsOf d.significand
    have leading : d.leadingPower = others.length + d.power := by
      rw [leadingPower, shape, List.length_cons]
      omega
    rw [scientific_exponent negative positional, shape]
    refine ⟨by simp [Literal.hasPoint], ?_, ?_⟩
    · rw [Literal.significand, ← value]
      cases others <;> simp
    · rw [Literal.power, leading]
      cases others <;> simp

/-- Other decimals are written with their zeros, and one more after the point. -/
theorem scientific_whole (negative : Bool) (positional : d.Positional) (whole : 0 ≤ d.power) :
    (d.scientific negative).hasPoint ∧
      (d.scientific negative).significand = d.significand * 10 ^ d.power.toNat * 10 ∧
      (d.scientific negative).power = -1 := by
  have behind : (-d.power).toNat = 0 := by omega
  have shape : d.scientific negative =
      ⟨negative, digitsOf d.significand ++ List.replicate d.power.toNat '0', some ['0'], none⟩ := by
    rw [scientific_positional negative positional]
    simp [places, behind]
  rw [shape]
  refine ⟨rfl, ?_, by simp [Literal.power]⟩
  have zero := valueOf_append_zeros (digitsOf d.significand ++ List.replicate d.power.toNat '0') 1
  rw [pow_one, valueOf_append_zeros (digitsOf d.significand), valueOf_digitsOf] at zero
  exact zero

end Scaled

namespace Binary64

variable {x : Binary64} {d : Scaled}

theorem roundHalfEven_mul_right {num den k : ℕ} (positive : 0 < k) :
    roundHalfEven (num * k) (den * k) = roundHalfEven num den := by
  simp only [roundHalfEven, Nat.mul_div_mul_right _ _ positive, Nat.mul_mod_mul_right, ← mul_assoc,
    Nat.mul_lt_mul_right positive]

/-- Quotients of the same value are rounded alike. -/
theorem roundedCode_mul_right (num : ℕ) {den k : ℕ} (denPos : 0 < den) (positive : 0 < k) :
    roundedCode (num * k) (den * k) = roundedCode num den := by
  rcases Nat.eq_zero_or_pos num with rfl | numPos
  · simp [roundedCode]
  · have value : ((num * k : ℕ) : ℚ) / (den * k : ℕ) = (num : ℚ) / den := by
      have nonzero : (k : ℚ) ≠ 0 := by exact_mod_cast positive.ne'
      push_cast
      exact mul_div_mul_right _ _ nonzero
    rw [roundedCode_eq (Nat.mul_pos numPos positive) (Nat.mul_pos denPos positive) rfl,
      roundedCode_eq numPos denPos rfl, value, mul_right_comm num, mul_right_comm den,
      roundHalfEven_mul_right positive]

/-- A whole number reads back with a zero after the point as it does without. -/
theorem ofDecimal_tenths (finite : x.isFinite) (back : x.readsBack d) (whole : 0 ≤ d.power) :
    ofDecimal x.negative (d.significand * 10 ^ d.power.toNat * 10) (-1) = x := by
  have code := code_of_readsBack finite back whole
  generalize d.significand * 10 ^ d.power.toNat = n at code
  rcases Nat.eq_zero_or_pos n with rfl | positive
  · simpa [readsBack, ofDecimal] using readsBack_zero code
  · have rounded : ofDecimal x.negative (n * 10) (-1) = ofQuotient x.negative (n * 10 * 1) (1 * 10) := by
      rw [ofDecimal, if_neg (by omega), if_neg (by decide), if_neg (by omega)]
      rfl
    have same : roundedCode (n * 10) (1 * 10) = roundedCode n 1 :=
      roundedCode_mul_right n (by decide) (by decide)
    rw [rounded, mul_one]
    cases x
    simpa [ofQuotient, same] using code.symm

/-- A decimal that reads back as a number does so as it is written. -/
theorem ofDecimal_scientific (finite : x.isFinite) (back : x.readsBack d) :
    ofDecimal x.negative (d.scientific x.negative).significand (d.scientific x.negative).power = x := by
  by_cases whole : d.Positional ∧ 0 ≤ d.power
  · obtain ⟨-, significand, power⟩ := Scaled.scientific_whole x.negative whole.1 whole.2
    rw [significand, power]
    exact ofDecimal_tenths finite back whole.2
  · have parts : d.Positional → d.power < 0 := fun positional => by
      by_contra no
      exact whole ⟨positional, by omega⟩
    obtain ⟨-, significand, power⟩ := Scaled.scientific_exact x.negative parts
    rw [significand, power]
    simpa [readsBack] using back

theorem reduced_shortest {tie : Tie} (finite : x.isFinite) (zero : (x.shortest tie).significand = 0) :
    (x.shortest tie).power = 0 := by
  have back : x.readsBack (x.shortest tie) := readsBack_shortest finite
  have code : x.code = 0 := by
    rw [readsBack, beq_iff_eq, zero] at back
    rw [← back]
    rfl
  simp [shortest, code]

/-- The digits of a number stand as JSON has them. -/
theorem strict_literal (finite : x.isFinite) : x.literal.Strict :=
  Scaled.strict_scientific _ (reduced_shortest finite)

/-- A number is never written as integers are. -/
theorem literal_hasPoint (x : Binary64) : x.literal.hasPoint := by
  by_cases whole : (x.shortest .even).Positional ∧ 0 ≤ (x.shortest .even).power
  · exact (Scaled.scientific_whole _ whole.1 whole.2).1
  · refine (Scaled.scientific_exact _ fun positional => ?_).1
    by_contra no
    exact whole ⟨positional, by omega⟩

/-- A number is read back from the literal it is written as. -/
theorem ofDecimal_literal (finite : x.isFinite) :
    ofDecimal x.literal.negative x.literal.significand x.literal.power = x := by
  have sign : x.literal.negative = x.negative := by
    rw [literal, Scaled.scientific]
    split <;> rfl
  rw [sign]
  exact ofDecimal_scientific finite (readsBack_shortest finite)

end Binary64

end FilterQuery.Decimal
