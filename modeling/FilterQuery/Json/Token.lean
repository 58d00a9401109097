import FilterQuery.Json
import FilterQuery.Text.Search

/-!
The tokens of a JSON text. Any text has tokens: where it breaks off or holds what JSON does not
allow, a last token tells so.
-/
namespace FilterQuery.Json

open Decimal Text

/-- How a part of a text ends: as it should, with the text, or at what does not belong there. -/
inductive Closing where
  | closed
  | cut
  | spoiled
deriving DecidableEq

/-- A piece of a string: a character, or four hexadecimal digits. -/
inductive Piece where
  | char (c : Char)
  | code (n : Nat)
deriving DecidableEq

/-- A string between quotes, as far as it could be read. -/
structure Quoted where
  pieces : List Piece
  closing : Closing
deriving DecidableEq

/-- A token. The last four stand for what is no token: a word or number that the text breaks off in,
and anything else. -/
inductive Token where
  | openArray
  | closeArray
  | openObject
  | closeObject
  | comma
  | colon
  | null
  | bool (b : Bool)
  | number (l : Literal)
  | string (q : Quoted)
  | cutWord
  | cutNumber
  | stray
deriving DecidableEq

/-- Blanks between tokens. -/
def isSpace (c : Char) : Bool := c == ' ' || c == '\t' || c == '\n' || c == '\r'

def hexValue? (c : Char) : Option Nat :=
  if c.isDigit then some (c.toNat - '0'.toNat)
  else if 'a' ≤ c && c ≤ 'f' then some (c.toNat - 'a'.toNat + 10)
  else if 'A' ≤ c && c ≤ 'F' then some (c.toNat - 'A'.toNat + 10)
  else none

def hexCode? (a b c d : Char) : Option Nat := do
  some (((← hexValue? a) * 16 + (← hexValue? b)) * 256 + (← hexValue? c) * 16 + (← hexValue? d))

/-- The character that a letter behind a backslash stands for. -/
def unescape? : Char → Option Char
  | '"' => some '"'
  | '\\' => some '\\'
  | '/' => some '/'
  | 'b' => some '\x08'
  | 'f' => some '\x0c'
  | 'n' => some '\n'
  | 'r' => some '\r'
  | 't' => some '\t'
  | _ => none

def Quoted.push (p : Piece) (q : Quoted) : Quoted := { q with pieces := p :: q.pieces }

/-- The string that follows an opening quote, and the text after it. A text of fewer than four
bytes is too short for the digits of a code. -/
def scanString : List Char → Quoted × List Char
  | [] => (⟨[], .cut⟩, [])
  | '"' :: rest => (⟨[], .closed⟩, rest)
  | ['\\'] => (⟨[], .cut⟩, [])
  | '\\' :: 'u' :: a :: b :: c :: d :: rest =>
    match hexCode? a b c d with
    | some n =>
      let (q, after) := scanString rest
      (q.push (.code n), after)
    | none => (⟨[], .spoiled⟩, [])
  | '\\' :: 'u' :: digits => (⟨[], if byteLength digits < 4 then .cut else .spoiled⟩, [])
  | '\\' :: e :: rest =>
    match unescape? e with
    | some c =>
      let (q, after) := scanString rest
      (q.push (.char c), after)
    | none => (⟨[], .spoiled⟩, [])
  | c :: rest =>
    if c.toNat < 0x20 then (⟨[], .spoiled⟩, [])
    else
      let (q, after) := scanString rest
      (q.push (.char c), after)

/-- Why a number cannot be read: the text breaks off in it, or it is no number. -/
inductive NumberFault where
  | cut
  | bad
deriving DecidableEq

/-- A run of digits, of which there is to be at least one, and the text after it. -/
def scanDigits (cs : List Char) : Except NumberFault (List Char × List Char) :=
  match cs.takeWhile Char.isDigit with
  | [] => .error (if cs.isEmpty then .cut else .bad)
  | digits => .ok (digits, cs.dropWhile Char.isDigit)

/-- The digits before the point: a zero alone, or digits that start with another. -/
def scanWhole : List Char → Except NumberFault (List Char × List Char)
  | '0' :: rest => if rest.head?.any Char.isDigit then .error .bad else .ok (['0'], rest)
  | cs => scanDigits cs

/-- The point and the digits after it, if there is a point. -/
def scanFraction : List Char → Except NumberFault (Option (List Char) × List Char)
  | '.' :: rest => (scanDigits rest).map fun (digits, after) => (some digits, after)
  | cs => .ok (none, cs)

/-- The exponent, if there is one. -/
def scanExponent : List Char → Except NumberFault (Option Int × List Char)
  | [] => .ok (none, [])
  | c :: cs =>
    if c == 'e' || c == 'E' then
      let (negative, body) := Literal.takeSign cs
      (scanDigits body).map fun (digits, after) =>
        (some (if negative then -(valueOf digits : Int) else valueOf digits), after)
    else .ok (none, c :: cs)

/-- The number without a sign at the start of a text, with the sign that stands before it. -/
def scanUnsigned (negative : Bool) (cs : List Char) : Except NumberFault (Literal × List Char) := do
  let (whole, cs) ← scanWhole cs
  let (fraction, cs) ← scanFraction cs
  let (exponent, cs) ← scanExponent cs
  .ok (⟨negative, whole, fraction, exponent⟩, cs)

def scanNumber : List Char → Except NumberFault (Literal × List Char)
  | '-' :: cs => scanUnsigned true cs
  | cs => scanUnsigned false cs

/-- The words of JSON, and the tokens they are. -/
def wordOf : Char → Option (List Char × Token)
  | 'n' => some ("null".toList, .null)
  | 't' => some ("true".toList, .bool true)
  | 'f' => some ("false".toList, .bool false)
  | _ => none

/-- The token at the start of a text, and the text after it. After a token that stands for what is
none, nothing is left. -/
def scanToken (c : Char) (cs : List Char) : Token × List Char :=
  match c with
  | '[' => (.openArray, cs)
  | ']' => (.closeArray, cs)
  | '{' => (.openObject, cs)
  | '}' => (.closeObject, cs)
  | ',' => (.comma, cs)
  | ':' => (.colon, cs)
  | '"' =>
    let (q, rest) := scanString cs
    (.string q, rest)
  | _ =>
    if c == '-' || c.isDigit then
      match scanNumber (c :: cs) with
      | .ok (l, rest) => (.number l, rest)
      | .error .cut => (.cutNumber, [])
      | .error .bad => (.stray, [])
    else
      match wordOf c with
      | none => (.stray, [])
      | some (word, token) =>
        if word.isPrefixOf (c :: cs) then (token, (c :: cs).drop word.length)
        else if (c :: cs).isPrefixOf word then (.cutWord, [])
        else (.stray, [])

theorem length_scanString_le (cs : List Char) : (scanString cs).2.length ≤ cs.length := by
  fun_induction scanString cs <;> simp_all <;> omega

theorem scanDigits_length {cs digits rest : List Char}
    (scanned : scanDigits cs = .ok (digits, rest)) : rest.length < cs.length := by
  unfold scanDigits at scanned
  split at scanned
  · cases scanned
  · next some =>
    cases scanned
    have all := congrArg List.length (List.takeWhile_append_dropWhile (p := Char.isDigit) (l := cs))
    have positive := List.length_pos_iff.mpr some
    simp only [List.length_append] at all
    omega

theorem scanWhole_length {cs digits rest : List Char}
    (scanned : scanWhole cs = .ok (digits, rest)) : rest.length < cs.length := by
  unfold scanWhole at scanned
  split at scanned
  · split at scanned
    · cases scanned
    · cases scanned; simp
  · exact scanDigits_length scanned

theorem scanFraction_length {cs rest : List Char} {fraction : Option (List Char)}
    (scanned : scanFraction cs = .ok (fraction, rest)) : rest.length ≤ cs.length := by
  unfold scanFraction at scanned
  split at scanned
  · next tail =>
    cases inner : scanDigits tail with
    | error e => simp [inner, Except.map] at scanned
    | ok parts =>
      simp only [inner, Except.map, Except.ok.injEq, Prod.mk.injEq] at scanned
      have shorter : parts.2.length < tail.length := scanDigits_length inner
      simp only [List.length_cons]
      rw [← scanned.2]
      omega
  · cases scanned; exact Nat.le_refl _

theorem scanExponent_length {cs rest : List Char} {exponent : Option Int}
    (scanned : scanExponent cs = .ok (exponent, rest)) : rest.length ≤ cs.length := by
  unfold scanExponent at scanned
  split at scanned
  · cases scanned; exact Nat.le_refl _
  · next c tail =>
    split at scanned
    · have signs : (Literal.takeSign tail).2.length ≤ tail.length := by
        unfold Literal.takeSign
        split <;> simp
      generalize Literal.takeSign tail = signed at scanned signs
      cases inner : scanDigits signed.2 with
      | error e => simp [inner, Except.map] at scanned
      | ok parts =>
        simp only [inner, Except.map, Except.ok.injEq, Prod.mk.injEq] at scanned
        have shorter : parts.2.length < signed.2.length := scanDigits_length inner
        simp only [List.length_cons]
        rw [← scanned.2]
        omega
    · cases scanned; exact Nat.le_refl _

theorem scanUnsigned_length {negative : Bool} {cs rest : List Char} {l : Literal}
    (scanned : scanUnsigned negative cs = .ok (l, rest)) : rest.length < cs.length := by
  unfold scanUnsigned at scanned
  cases whole : scanWhole cs with
  | error e => simp [whole, bind, Except.bind] at scanned
  | ok parts =>
    obtain ⟨digits, afterWhole⟩ := parts
    simp only [whole, bind, Except.bind] at scanned
    cases fraction : scanFraction afterWhole with
    | error e => simp [fraction] at scanned
    | ok parts =>
      obtain ⟨places, afterFraction⟩ := parts
      simp only [fraction] at scanned
      cases exponent : scanExponent afterFraction with
      | error e => simp [exponent] at scanned
      | ok parts =>
        obtain ⟨power, afterExponent⟩ := parts
        simp only [exponent, Except.ok.injEq, Prod.mk.injEq] at scanned
        have first := scanWhole_length whole
        have second := scanFraction_length fraction
        have third := scanExponent_length exponent
        rw [← scanned.2]
        omega

theorem scanNumber_length {cs rest : List Char} {l : Literal}
    (scanned : scanNumber cs = .ok (l, rest)) : rest.length < cs.length := by
  unfold scanNumber at scanned
  split at scanned
  · exact Nat.lt_succ_of_lt (scanUnsigned_length scanned)
  · exact scanUnsigned_length scanned

/-- A token leaves no more than what follows its first character. -/
theorem scanToken_length (c : Char) (cs : List Char) : (scanToken c cs).2.length ≤ cs.length := by
  unfold scanToken
  split
  any_goals exact Nat.le_refl _
  · exact length_scanString_le cs
  · split
    · split
      · next scanned => exact Nat.le_of_lt_succ (scanNumber_length scanned)
      · exact Nat.zero_le _
      · exact Nat.zero_le _
    · split
      · exact Nat.zero_le _
      · next word token found =>
        have nonempty : 0 < word.length := by
          unfold wordOf at found
          split at found <;> simp_all <;> (rw [← found.1]; decide)
        split
        · simp only [List.length_drop, List.length_cons]
          omega
        · split <;> exact Nat.zero_le _

def tokens : List Char → List Token
  | [] => []
  | c :: cs =>
    if isSpace c then tokens cs
    else (scanToken c cs).1 :: tokens (scanToken c cs).2
termination_by cs => cs.length
decreasing_by
  · simp
  · exact Nat.lt_succ_of_le (scanToken_length c cs)

end FilterQuery.Json
