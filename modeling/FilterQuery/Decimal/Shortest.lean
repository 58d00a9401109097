import FilterQuery.Decimal.Binary64
import FilterQuery.Decimal.Literal

/-!
The shortest decimals that read back as a given binary number, and the two ways in which they are
written: plain, and with an exponent where the number is very large or very small.
-/
namespace FilterQuery.Decimal

/-- A decimal without a sign: `significand * 10 ^ power`. -/
structure Scaled where
  significand : Nat
  power : Int
deriving DecidableEq

/-- Which of two decimals at the same distance from a number is taken. -/
inductive Tie where
  | upper
  | even
deriving DecidableEq

namespace Binary64

/-- The decimal that is exactly the magnitude of a number. -/
def exactDecimal (x : Binary64) : Scaled :=
  if 0 ≤ x.unit then ⟨x.significand <<< x.unit.toNat, 0⟩
  else ⟨x.significand * Nat.pow 5 (-x.unit).toNat, x.unit⟩

/-- Whether rounding a decimal gives the number back. -/
def readsBack (x : Binary64) (d : Scaled) : Bool :=
  ofDecimal x.negative d.significand d.power == x

/-- The largest power of ten that is at most a positive quotient. -/
def floorLog10 (num den : Nat) : Int :=
  let guess : Int := (digitsOf num).length - (digitsOf den).length
  if den * Nat.pow 10 guess.toNat ≤ num * Nat.pow 10 (-guess).toNat then guess else guess - 1

/-- A decimal of at most `count` digits; `10 ^ count` at its own power of ten. -/
def ofGrid (count significand : Nat) (power : Int) : Scaled :=
  if significand = Nat.pow 10 count then ⟨1, power + count⟩ else ⟨significand, power⟩

/-- Of the two decimals of `count` digits around a number the one that reads back as it, the nearer
one if both do. -/
def withDigits? (tie : Tie) (x : Binary64) (count : Nat) : Option Scaled :=
  let (num, den) := x.quotient
  let power := floorLog10 num den - count + 1
  let scaledNum := num * Nat.pow 10 (-power).toNat
  let scaledDen := den * Nat.pow 10 power.toNat
  let below := scaledNum / scaledDen
  let rest := scaledNum % scaledDen
  let lower := ofGrid count below power
  let upper := ofGrid count (below + 1) power
  match x.readsBack lower, x.readsBack upper with
  | true, true =>
    if 2 * rest < scaledDen then some lower
    else if scaledDen < 2 * rest then some upper
    else if tie = .even ∧ below % 2 = 0 then some lower
    else some upper
  | true, false => some lower
  | false, true => some upper
  | false, false => none

/-- The decimal with the fewest digits that reads back as a number, up to 17 digits, and of
several the nearest. -/
def shortest (tie : Tie) (x : Binary64) : Scaled :=
  if x.code = 0 then ⟨0, 0⟩
  else ((List.range 17).findSome? fun n => x.withDigits? tie (n + 1)).getD x.exactDecimal

end Binary64

namespace Scaled

/-- The digits of a decimal before and after the point, with a zero before the point where there
is no other digit. -/
def places (d : Scaled) : List Char × List Char :=
  let digits := digitsOf d.significand
  let behind := (-d.power).toNat
  if behind = 0 then (digits ++ List.replicate d.power.toNat '0', [])
  else if behind < digits.length then
    (digits.take (digits.length - behind), digits.drop (digits.length - behind))
  else (['0'], List.replicate (behind - digits.length) '0' ++ digits)

/-- The power of ten of the first digit. -/
def leadingPower (d : Scaled) : Int := (digitsOf d.significand).length + d.power - 1

/-- A decimal without an exponent, and without a point if nothing follows it. -/
def plain (d : Scaled) (negative : Bool) : Literal :=
  let (whole, fraction) := d.places
  ⟨negative, whole, if fraction.isEmpty then none else some fraction, none⟩

/-- A decimal with a point and at least one digit after it where the first digit stands for
`10 ^ (-5)` up to `10 ^ 15`, and with an exponent after a single first digit elsewhere. -/
def scientific (d : Scaled) (negative : Bool) : Literal :=
  if -5 ≤ d.leadingPower ∧ d.leadingPower < 16 then
    let (whole, fraction) := d.places
    ⟨negative, whole, some (if fraction.isEmpty then ['0'] else fraction), none⟩
  else
    let digits := digitsOf d.significand
    ⟨negative, digits.take 1, if digits.length = 1 then none else some (digits.drop 1),
      some d.leadingPower⟩

end Scaled

namespace Binary64

/-- A number in plain digits: the shortest that read back, the upper of two equally near. -/
def display (x : Binary64) : List Char :=
  if x.isNaN then ['N', 'a', 'N']
  else if x.isFinite then ((x.shortest .upper).plain x.negative).render
  else if x.negative then ['-', 'i', 'n', 'f']
  else ['i', 'n', 'f']

/-- The literal of a number as JSON writes it: the shortest digits that read back, the even one of
two equally near. -/
def literal (x : Binary64) : Literal := (x.shortest .even).scientific x.negative

end Binary64

end FilterQuery.Decimal
