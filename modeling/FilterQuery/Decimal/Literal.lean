/-!
Decimal literals: the grammar of numbers in expressions, the number that a literal stands for, and
the way a literal is written.
-/
namespace FilterQuery.Decimal

/-- The number that a run of decimal digits stands for. -/
def valueOf (digits : List Char) : Nat := Nat.ofDigitChars 10 digits 0

/-- The decimal digits of a number, without leading zeros. -/
def digitsOf (n : Nat) : List Char := Nat.toDigits 10 n

@[simp] theorem valueOf_digitsOf (n : Nat) : valueOf (digitsOf n) = n :=
  Nat.ofDigitChars_ten_toDigits

/-- An integer in decimal digits, with a sign in front if it is negative. -/
def textOf (i : Int) : List Char :=
  if i < 0 then '-' :: digitsOf i.natAbs else digitsOf i.natAbs

/-- A decimal literal: a sign, digits, digits after a point if there is a point, and a power of
ten if one is written. -/
structure Literal where
  negative : Bool
  whole : List Char
  fraction : Option (List Char)
  exponent : Option Int
deriving DecidableEq

namespace Literal

/-- The digits of the literal without the point, read as one number. -/
def significand (l : Literal) : Nat := valueOf (l.whole ++ l.fraction.getD [])

/-- The power of ten that the digits without the point are taken times. -/
def power (l : Literal) : Int := l.exponent.getD 0 - (l.fraction.getD []).length

def ofInt (i : Int) : Literal := ⟨i < 0, digitsOf i.natAbs, none, none⟩

/-- The exponent of a literal as it is written: always with a sign. -/
def exponentText (e : Int) : List Char :=
  'e' :: (if e < 0 then '-' else '+') :: digitsOf e.natAbs

/-- The literal as it is written. -/
def render (l : Literal) : List Char :=
  (if l.negative then ['-'] else []) ++ l.whole ++
    (match l.fraction with
      | none => []
      | some digits => '.' :: digits) ++
    (match l.exponent with
      | none => []
      | some e => exponentText e)

/-- Whether there is a minus in front of a text, and the text after the sign it may have. -/
def takeSign : List Char → Bool × List Char
  | '-' :: cs => (true, cs)
  | '+' :: cs => (false, cs)
  | cs => (false, cs)

/-- The exponent that a text consists of, if it is one or is empty. -/
def readExponent? : List Char → Option (Option Int)
  | [] => some none
  | c :: cs =>
    if c == 'e' || c == 'E' then
      let (negative, digits) := takeSign cs
      if !digits.isEmpty && digits.all Char.isDigit then
        some (some (if negative then -(valueOf digits : Int) else valueOf digits))
      else none
    else none

/-- The literal that a text consists of: an optional sign; ASCII digits, or digits with a point
before, among or after them; an optional exponent of `e` or `E`, an optional sign and digits. -/
def read? (cs : List Char) : Option Literal :=
  let (negative, body) := takeSign cs
  let whole := body.takeWhile Char.isDigit
  match body.dropWhile Char.isDigit with
  | '.' :: rest =>
    let fraction := rest.takeWhile Char.isDigit
    if whole.isEmpty && fraction.isEmpty then none
    else (readExponent? (rest.dropWhile Char.isDigit)).map (⟨negative, whole, some fraction, ·⟩)
  | rest =>
    if whole.isEmpty then none
    else (readExponent? rest).map (⟨negative, whole, none, ·⟩)

end Literal

end FilterQuery.Decimal
