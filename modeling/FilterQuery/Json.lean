import FilterQuery.Decimal.Literal

/-!
JSON values and their text, in two layouts: without any blanks, and with a line for each item and
each member.
-/
namespace FilterQuery

open Decimal

/-- A JSON value. Numbers are kept as they are written, and members in their order. -/
inductive Json where
  | null
  | bool (b : Bool)
  | number (l : Literal)
  | string (s : String)
  | array (items : List Json)
  | object (members : List (String × Json))

namespace Json

instance : Inhabited Json := ⟨null⟩

def hexDigit (n : Nat) : Char := Nat.digitChar (n % 16)

/-- A character inside of a string: quotes, backslashes and control characters are escaped. -/
def escapedChar (c : Char) : List Char :=
  if c == '"' || c == '\\' then ['\\', c]
  else if c == '\x08' then ['\\', 'b']
  else if c == '\t' then ['\\', 't']
  else if c == '\n' then ['\\', 'n']
  else if c == '\x0c' then ['\\', 'f']
  else if c == '\r' then ['\\', 'r']
  else if c.toNat < 0x20 then ['\\', 'u', '0', '0', hexDigit (c.toNat / 16), hexDigit c.toNat]
  else [c]

def quoted (s : String) : List Char := '"' :: s.toList.flatMap escapedChar ++ ['"']

mutual

/-- The text of a value without blanks. -/
def compactChars : Json → List Char
  | null => "null".toList
  | bool true => "true".toList
  | bool false => "false".toList
  | number l => l.render
  | string s => quoted s
  | array [] => "[]".toList
  | array (item :: items) => '[' :: compactChars item ++ compactItems items ++ [']']
  | object [] => "{}".toList
  | object ((key, value) :: members) =>
    '{' :: quoted key ++ ':' :: compactChars value ++ compactMembers members ++ ['}']

def compactItems : List Json → List Char
  | [] => []
  | item :: items => ',' :: compactChars item ++ compactItems items

def compactMembers : List (String × Json) → List Char
  | [] => []
  | (key, value) :: members =>
    ',' :: quoted key ++ ':' :: compactChars value ++ compactMembers members

end

def newline (depth : Nat) : List Char := '\n' :: List.replicate (2 * depth) ' '

mutual

/-- The text of a value at a depth, with a line for each item and each member. -/
def prettyChars (depth : Nat) : Json → List Char
  | null => "null".toList
  | bool true => "true".toList
  | bool false => "false".toList
  | number l => l.render
  | string s => quoted s
  | array [] => "[]".toList
  | array (item :: items) =>
    '[' :: newline (depth + 1) ++ prettyChars (depth + 1) item ++ prettyItems (depth + 1) items ++
      newline depth ++ [']']
  | object [] => "{}".toList
  | object ((key, value) :: members) =>
    '{' :: newline (depth + 1) ++ quoted key ++ ':' :: ' ' :: prettyChars (depth + 1) value ++
      prettyMembers (depth + 1) members ++ newline depth ++ ['}']

def prettyItems (depth : Nat) : List Json → List Char
  | [] => []
  | item :: items => ',' :: newline depth ++ prettyChars depth item ++ prettyItems depth items

def prettyMembers (depth : Nat) : List (String × Json) → List Char
  | [] => []
  | (key, value) :: members =>
    ',' :: newline depth ++ quoted key ++ ':' :: ' ' :: prettyChars depth value ++
      prettyMembers depth members

end

def compact (j : Json) : String := String.ofList j.compactChars

def pretty (j : Json) : String := String.ofList (j.prettyChars 0)

end Json

end FilterQuery
