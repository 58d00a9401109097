/-!
Binary floating point numbers of 64 bits, and the rounding of quotients and decimals to them. A
number without its sign is a code of 63 bits, in the order of the magnitudes, so that the rounding
is to a code. Main statement: a number is determined by its bits (`Binary64.ofBits_toBits`).
-/
namespace FilterQuery.Decimal

/-- The number of codes, which is two to the power of 63. -/
def codes : Nat := 0x8000000000000000

/-- The number of codes with the same power of two, which is two to the power of 52. -/
def binade : Nat := 0x10000000000000

/-- A binary floating point number of 64 bits: a sign, and the code of a magnitude. -/
structure Binary64 where
  negative : Bool
  code : Nat
  code_lt : code < codes
deriving DecidableEq

namespace Binary64

/-- The code of infinity. The codes above it stand for no number. -/
def infinityCode : Nat := 2047 * binade

def zero (negative : Bool) : Binary64 := ⟨negative, 0, by decide⟩

def infinity (negative : Bool) : Binary64 := ⟨negative, infinityCode, by decide⟩

/-- Whether the code stands for a number. -/
def isFinite (x : Binary64) : Bool := x.code < infinityCode

/-- Whether the code stands for neither a number nor infinity. -/
def isNaN (x : Binary64) : Bool := infinityCode < x.code

/-- The number with the given 64 bits, the sign first and the code after it. -/
def ofBits (bits : Nat) : Binary64 :=
  ⟨bits / codes % 2 == 1, bits % codes, Nat.mod_lt _ (by decide)⟩

/-- The 64 bits of a number, the sign first and the code after it. -/
def toBits (x : Binary64) : Nat := (if x.negative then codes else 0) + x.code

/-- A number is determined by its bits. -/
theorem ofBits_toBits (x : Binary64) : ofBits x.toBits = x := by
  obtain ⟨negative, code, bound⟩ := x
  simp only [ofBits, toBits, Binary64.mk.injEq]
  cases negative <;> simp only [codes, Bool.false_eq_true, if_true, if_false, beq_iff_eq,
    beq_eq_false_iff_ne] at bound ⊢ <;> omega

/-- The whole number of units that a number is, where the unit is a power of two. -/
def significand (x : Binary64) : Nat :=
  if x.code < binade then x.code else binade + x.code % binade

/-- The power of two that is the unit of a number. -/
def unit (x : Binary64) : Int := max (x.code / binade : Nat) 1 - 1075

/-- The magnitude of a number as a quotient. -/
def quotient (x : Binary64) : Nat × Nat :=
  (x.significand <<< x.unit.toNat, 1 <<< (-x.unit).toNat)

/-- The whole number nearest to a quotient, and the even one of two that are equally near. -/
def roundHalfEven (num den : Nat) : Nat :=
  let below := num / den
  let rest := num % den
  if 2 * rest < den then below
  else if den < 2 * rest then below + 1
  else below + below % 2

/-- The largest power of two that is at most a positive quotient. -/
def floorLog2 (num den : Nat) : Int :=
  let guess : Int := (num.log2 : Int) - den.log2
  if den <<< guess.toNat ≤ num <<< (-guess).toNat then guess else guess - 1

/-- The code of the number nearest to a quotient: the quotient is rounded to a whole number of
units, the unit being such that this number has 53 bits, or the least unit there is. -/
def roundedCode (num den : Nat) : Nat :=
  if num = 0 then 0
  else
    let unit := max (floorLog2 num den - 52) (-1074)
    let units := roundHalfEven (num <<< (-unit).toNat) (den <<< unit.toNat)
    min ((unit + 1074).toNat * binade + units) infinityCode

/-- The number nearest to a quotient with a sign. -/
def ofQuotient (negative : Bool) (num den : Nat) : Binary64 :=
  ⟨negative, roundedCode num den, by
    unfold roundedCode
    split
    · decide
    · exact Nat.lt_of_le_of_lt (Nat.min_le_right _ _) (by decide)⟩

/-- The number nearest to `significand * 10 ^ power` with a sign. Powers of ten that leave no doubt
are not computed: above `10 ^ 400` all is infinite, and below `2 ^ (-1099)` all is zero. -/
def ofDecimal (negative : Bool) (significand : Nat) (power : Int) : Binary64 :=
  if significand = 0 then zero negative
  else if 400 < power then infinity negative
  else if (significand.log2 : Int) + 1100 < -3 * power then zero negative
  else ofQuotient negative (significand * Nat.pow 10 power.toNat) (Nat.pow 10 (-power).toNat)

/-- The integer that a number is, if it is one. -/
def toInt? (x : Binary64) : Option Int :=
  let (num, den) := x.quotient
  if x.isFinite && num % den == 0 then
    some (if x.negative then -(num / den : Nat) else (num / den : Nat))
  else none

end Binary64

end FilterQuery.Decimal
