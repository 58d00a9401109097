import FilterQuery.Decimal.Binary64
import FilterQuery.Json.Draft
import FilterQuery.Table

/-!
Values of given kinds read from drafts. Reading goes from left to right and tells the first thing
that is wrong: the text ends too early, or is no JSON, or holds another value than the one that is
due.
-/
namespace FilterQuery.Json

open Decimal

/-- What is wrong with a text. -/
inductive Failure where
  | truncated
  | malformed
  | mismatched
deriving DecidableEq

/-- The failure of a part of a text that does not end as it should. -/
def Closing.check : Closing → Except Failure Unit
  | closed => .ok ()
  | cut => .error .truncated
  | spoiled => .error .malformed

/-- The first halves of characters that are written as two codes. -/
def isLeading (n : Nat) : Bool := 0xD800 ≤ n && n < 0xDC00

/-- The second halves of characters that are written as two codes. -/
def isTrailing (n : Nat) : Bool := 0xDC00 ≤ n && n < 0xE000

def joinHalves (leading trailing : Nat) : Char :=
  Char.ofNat (0x10000 + (leading - 0xD800) * 0x400 + (trailing - 0xDC00))

/-- The characters of a string. Half a character is malformed, unless it is the first half and the
text ends where the second should come. -/
def charsOf (closing : Closing) : List Piece → Except Failure (List Char)
  | [] => closing.check.map fun _ => []
  | .char c :: pieces => (charsOf closing pieces).map (c :: ·)
  | [.code n] =>
    if isLeading n then .error (if closing = .cut then .truncated else .malformed)
    else if isTrailing n then .error .malformed
    else closing.check.map fun _ => [Char.ofNat n]
  | .code n :: .code m :: pieces =>
    if isLeading n then
      if isTrailing m then (charsOf closing pieces).map (joinHalves n m :: ·)
      else .error .malformed
    else if isTrailing n then .error .malformed
    else (charsOf closing (.code m :: pieces)).map (Char.ofNat n :: ·)
  | .code n :: .char c :: pieces =>
    if isLeading n || isTrailing n then .error .malformed
    else (charsOf closing (.char c :: pieces)).map (Char.ofNat n :: ·)

def Quoted.text (q : Quoted) : Except Failure String :=
  (charsOf q.closing q.pieces).map String.ofList

/-- The first digits of a number that fit 64 bits when read after the given number, and the digits
after them. -/
def takeFitting (sofar : Nat) : List Char → Nat × List Char
  | [] => (sofar, [])
  | d :: digits =>
    let next := sofar * 10 + valueOf [d]
    if next < UInt64.size then takeFitting next digits else (sofar, d :: digits)

/-- Whether a number is too large for 64 bits of floating point. Of its digits those count that fit
64 bits; they are rounded before the power of ten is multiplied to them, and the product is rounded
again. -/
def isTooLarge (l : Literal) : Bool :=
  let (whole, dropped) := takeFitting 0 l.whole
  let fraction := l.fraction.getD []
  let (significand, unread) := takeFitting whole fraction
  let power : Int :=
    l.exponent.getD 0 + dropped.length - (fraction.length - unread.length : Nat)
  if significand = 0 || power < 0 then false
  else if 308 < power then true
  else
    let (a, b) := (Binary64.ofQuotient false significand 1).quotient
    let (p, q) := (Binary64.ofQuotient false (Nat.pow 10 power.toNat) 1).quotient
    !(Binary64.ofQuotient false (a * p) (b * q)).isFinite

namespace Draft

/-- What is wrong with a value that is not of the kind that is due. -/
def mismatch : Draft → Failure
  | missing | cutWord | cutNumber => .truncated
  | stray => .malformed
  | number l => if isTooLarge l then .malformed else .mismatched
  | string q =>
    match q.text with
    | .error failure => failure
    | .ok _ => .mismatched
  | null | bool _ | array _ _ | object _ _ => .mismatched

def text : Draft → Except Failure String
  | string q => q.text
  | d => .error d.mismatch

def keyText : Draft → Except Failure String
  | string q => q.text
  | missing => .error .truncated
  | _ => .error .malformed

/-- The items of an array, each read by the given reader. -/
def list {α : Type} (item : Draft → Except Failure α) : Draft → Except Failure (List α)
  | array items closing => do
    let values ← items.mapM item
    closing.check
    .ok values
  | d => .error d.mismatch

/-- The members of an object as a table, each value read by the given reader. -/
def table {α : Type} (item : Draft → Except Failure α) : Draft → Except Failure (Table α)
  | object members closing => do
    let entries ← members.mapM fun (key, value) => do
      let key ← key.keyText
      let value ← item value
      .ok (key, value)
    closing.check
    .ok (.ofList entries)
  | d => .error d.mismatch

/-- A number of names that are listed, or no limit. -/
def limit : Draft → Except Failure (Option Nat)
  | null => .ok none
  | number l =>
    if !l.negative && l.fraction.isNone && l.exponent.isNone && l.significand < UInt64.size then
      .ok (some l.significand)
    else .error (number l).mismatch
  | d => .error d.mismatch

mutual

/-- The check of a value that nothing is read from. -/
def skip : Draft → Except Failure Unit
  | missing | cutWord => .error .truncated
  | stray | cutNumber => .error .malformed
  | null | bool _ | number _ => .ok ()
  | string q => q.closing.check
  | array items closing => do
    skipItems items
    closing.check
  | object members closing => do
    skipMembers members
    closing.check

def skipItems : List Draft → Except Failure Unit
  | [] => .ok ()
  | item :: items => do
    skip item
    skipItems items

def skipMembers : List (Draft × Draft) → Except Failure Unit
  | [] => .ok ()
  | (key, value) :: members => do
    match key with
    | string q => q.closing.check
    | missing => .error .truncated
    | _ => .error .malformed
    skip value
    skipMembers members

end

end Draft

/-- A field of a record that is being read into `σ`: its name, whether it has been read, and how it
is read. -/
structure RecordField (σ : Type) where
  name : String
  isRead : σ → Bool
  read : σ → Draft → Except Failure σ

namespace Draft

/-- One member of an object that holds a record. Members that are no fields are passed over. -/
def readMember {σ : Type} (fields : List (RecordField σ)) (sofar : σ) (member : Draft × Draft) :
    Except Failure σ := do
  let key ← member.1.keyText
  match fields.find? (·.name = key) with
  | some field =>
    if field.isRead sofar then .error .mismatched else field.read sofar member.2
  | none => do
    skip member.2
    .ok sofar

/-- The items of an array that holds a record, which are its fields in order. -/
def readFields {σ : Type} (closing : Closing) :
    List (RecordField σ) → σ → List Draft → Except Failure σ
  | _, sofar, [] => do
    closing.check
    .ok sofar
  | [], _, _ :: _ => .error .malformed
  | field :: fields, sofar, item :: items => do
    let next ← field.read sofar item
    readFields closing fields next items

/-- A record, from an object or from an array. -/
def record {σ : Type} (fields : List (RecordField σ)) (start : σ) : Draft → Except Failure σ
  | object members closing => do
    let done ← members.foldlM (readMember fields) start
    closing.check
    .ok done
  | array items closing => readFields closing fields start items
  | d => .error d.mismatch

/-- One of several names: a string, or an object with the name as its one key and null as its
value. -/
def oneOf {α : Type} (ofName? : String → Option α) : Draft → Except Failure α
  | string q => do
    let name ← q.text
    match ofName? name with
    | some a => .ok a
    | none => .error .mismatched
  | object [] .cut => .error .truncated
  | object ((key, value) :: members) closing => do
    let name ← key.keyText
    match ofName? name with
    | none => .error .mismatched
    | some a => do
      match value with
      | null => .ok ()
      | d => .error d.mismatch
      match members, closing with
      | [], .closed => .ok a
      | [], .cut => .error .truncated
      | _, _ => .error .malformed
  | missing => .error .truncated
  | _ => .error .malformed

end Draft

/-- The value that a text consists of, read by the given reader. -/
def readText {α : Type} (reader : Draft → Except Failure α) (text : String) : Except Failure α := do
  let document := readDocument text.toList
  let value ← reader document.root
  document.closing.check
  .ok value

end FilterQuery.Json
