import FilterQuery.Text.Blank
import FilterQuery.Text.Search
import FilterQuery.Value

/-!
The value that a piece of an expression stands for. Every text stands for some value: what is
neither a keyword nor quoted nor a list nor a number is a text.
-/
namespace FilterQuery.Value

open Text Decimal

/-- Whether an integer can be written in 64 bits. -/
def fits (i : Int) : Bool := Int64.minValue.toInt ≤ i && i ≤ Int64.maxValue.toInt

/-- The integer if it can be written in 64 bits, and else the given number. -/
def intOr (x : Binary64) (i : Int) : Value := if fits i then int (.ofInt i) else float x

/-- The value of a decimal literal. Without a point it is an integer where one fits: the integer
that is written, or with an exponent the one that the nearest floating point number is. A literal
too large for a floating point number has no value. -/
def ofLiteral? (l : Literal) : Option Value :=
  let x := Binary64.ofDecimal l.negative l.significand l.power
  let written : Int := if l.negative then -(l.significand : Int) else l.significand
  if l.fraction.isNone && l.exponent.isNone && fits written then some (int (.ofInt written))
  else if !x.isFinite then none
  else
    match l.fraction, x.toInt? with
    | none, some i => some (intOr x i)
    | _, _ => some (float x)

/-- The characters that texts are quoted with. -/
def isQuote (c : Char) : Bool := c == '\'' || c == '"'

/-- The text between two equal quotes at the two ends of a token. -/
def unquote? : List Char → Option (List Char)
  | [] => none
  | q :: rest => if isQuote q && rest.getLast? == some q then some rest.dropLast else none

/-- The text between the parentheses at the two ends of a token. -/
def unwrap? : List Char → Option (List Char)
  | '(' :: rest => if rest.getLast? == some ')' then some rest.dropLast else none
  | _ => none

/-- The value of a token that is not read as a list. -/
def ofScalar (token : List Char) : Value :=
  let token := trim token
  if token.isEmpty || sameText token "null".toList then null
  else if sameText token "true".toList then bool true
  else if sameText token "false".toList then bool false
  else
    match unquote? token with
    | some inner => text (String.ofList inner)
    | none => ((Literal.read? token).bind ofLiteral?).getD (text (String.ofList token))

/-- The items of a list: the values between commas, and none if there is nothing but blanks. -/
def ofItems (body : List Char) : List Value :=
  if (trim body).isEmpty then [] else (pieces (· == ',') body).map ofScalar

/-- The value of a token. Only the token as a whole is read as a list. -/
def ofToken (token : List Char) : Value :=
  match unwrap? (trim token) with
  | some body => list (ofItems body)
  | none => ofScalar token

def coerce : Option String → Value
  | none => null
  | some token => ofToken token.toList

end FilterQuery.Value
