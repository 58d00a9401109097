import FilterQuery.Decimal.Literal
import FilterQuery.Sql.Render
import Mathlib.Data.List.Basic

/-!
A reader of statements. It knows names between double quotes, texts between single quotes, numbers and
key words, and takes every character of a text for what its place makes it.
-/
namespace FilterQuery.Sql

/-- The conditions of a statement as they are read: a constant, or terms with a connective between
each and the next. -/
inductive Conditions where
  | constant (holds : Bool)
  | terms (first : Term) (others : List (Connective × Term))
deriving DecidableEq

/-- The conditions that terms are, with the same connective between all of them. Of no terms all hold,
and not one holds. -/
def Conditions.of (connective : Connective) : List Term → Conditions
  | [] => .constant (connective = .and)
  | first :: others => .terms first (others.map (connective, ·))

/-- A statement as it is read. -/
structure Reading where
  table : String
  name : String
  joins : List Join
  conditions : Conditions
deriving DecidableEq

def Statement.reading (s : Statement) : Reading :=
  ⟨s.table, s.name, s.joins, .of s.connective s.terms⟩

/-- What reads something that a text starts with, and gives what follows it. -/
abbrev Reader (α : Type) := List Char → Option (α × List Char)

namespace Reader

variable {α β : Type}

def map (f : α → β) (reader : Reader α) : Reader β := fun cs =>
  (reader cs).map fun (a, rest) => (f a, rest)

def after (lead : List Char) (reader : Reader α) : Reader α := fun cs =>
  (cs.dropPrefix? lead).bind reader

def done (a : α) : Reader α := fun cs => some (a, cs)

/-- What the reader behind the first fitting lead reads. -/
def byLead (choices : List (List Char × Reader α)) : Reader α := fun cs =>
  choices.findSome? fun choice => after choice.1 choice.2 cs

/-- The same again and again, as long as it can be read and is not empty. -/
def many (item : Reader α) (cs : List Char) : List α × List Char :=
  match item cs with
  | none => ([], cs)
  | some (a, rest) =>
    if rest.length < cs.length then
      let (others, last) := many item rest
      (a :: others, last)
    else ([], cs)
termination_by cs.length

/-- The character that a code behind a backslash stands for. -/
def unescape? (code : Char) : Option Char :=
  if code == '\\' || code == '"' || code == '\'' then some code
  else if code == '0' then some '\x00'
  else if code == 'b' then some '\x08'
  else if code == 't' then some '\t'
  else if code == 'z' then some '\x1a'
  else if code == 'n' then some '\n'
  else if code == 'r' then some '\r'
  else none

def push (c : Char) (read : List Char × List Char) : List Char × List Char := (c :: read.1, read.2)

/-- What is left of a quotation. It ends with a quote that stands alone; a quote written twice is
part of it. Where there are escapes, a backslash and the code behind it are one character. -/
def quotation (quote : Char) (escapes : Bool) : Reader (List Char)
  | [] => none
  | c :: cs =>
    if c = quote then
      match cs with
      | [] => some ([], [])
      | d :: rest =>
        if d = quote then (quotation quote escapes rest).map (push quote) else some ([], d :: rest)
    else if escapes && c == '\\' then
      match cs with
      | [] => none
      | code :: rest =>
        (unescape? code).bind fun original => (quotation quote escapes rest).map (push original)
    else (quotation quote escapes cs).map (push c)

def name : Reader String := after ['"'] (map String.ofList (quotation '"' false))

/-- A text between single quotes. There are escapes in it if there is a mark in front. -/
def text : Reader String := byLead [
  (['E', '\''], map String.ofList (quotation '\'' true)),
  (['\''], map String.ofList (quotation '\'' false))]

/-- Whether the character may stand in a number. -/
def isNumberChar (c : Char) : Bool := c.isDigit || c == '-' || c == '.'

/-- A number, kept in the digits in which it is written. -/
def number : Reader Literal := fun cs =>
  let digits := cs.takeWhile isNumberChar
  (Decimal.Literal.read? digits).map fun _ =>
    (.number (String.ofList digits), cs.dropWhile isNumberChar)

def keyword : Reader Literal := byLead [
  ("NULL".toList, done .null), ("TRUE".toList, done (.bool true)),
  ("FALSE".toList, done (.bool false))]

def literal : Reader Literal := fun cs => (keyword cs).or ((map .text text cs).or (number cs))

def column : Reader Column := fun cs => do
  let (table, cs) ← name cs
  let (column, cs) ← after ['.'] name cs
  some (⟨table, column⟩, cs)

/-- The constants of a list behind its opening parenthesis. -/
def list (column : Column) (negated : Bool) : Reader Term := fun cs => do
  let (first, cs) ← literal cs
  let (others, cs) := many (after ", ".toList literal) cs
  after [')'] (done (.isIn column negated first others)) cs

def comparisons : List Comparison := [.eq, .neq, .gt, .gte, .lt, .lte]

/-- What a term can say of its column, by the leads that it is said with. -/
def tests (column : Column) : List (List Char × Reader Term) := [
  (" IS NULL".toList, done (.isNull column false)),
  (" IS NOT NULL".toList, done (.isNull column true)),
  (" LIKE ".toList, map (.like column) text),
  (" IN (".toList, list column false),
  (" NOT IN (".toList, list column true)] ++
  comparisons.map fun comparison =>
    (' ' :: comparison.sign ++ [' '], map (.compare column comparison) literal)

def test (column : Column) : Reader Term := byLead (tests column)

def constantTerm : Reader Term := byLead [
  ("1 = 1".toList, done (.constant true)), ("1 = 2".toList, done (.constant false))]

def columnTerm : Reader Term := fun cs => do
  let (column, cs) ← column cs
  test column cs

def term : Reader Term := fun cs => (constantTerm cs).or (columnTerm cs)

def furtherTerm : Reader (Connective × Term) := byLead <| Connective.all.map fun connective =>
  (' ' :: connective.keyword.toList ++ [' '], map (connective, ·) term)

def constantConditions : Reader Conditions := byLead [
  ("TRUE".toList, done (.constant true)), ("FALSE".toList, done (.constant false))]

def terms : Reader Conditions := fun cs => do
  let (first, cs) ← term cs
  let (others, cs) := many furtherTerm cs
  some (.terms first others, cs)

def conditions : Reader Conditions := fun cs => (constantConditions cs).or (terms cs)

def join : Reader Join := after " LEFT JOIN ".toList fun cs => do
  let (table, cs) ← name cs
  let (named, cs) ← after " AS ".toList name cs
  let (left, cs) ← after " ON ".toList column cs
  let (right, cs) ← after " = ".toList column cs
  some (⟨table, named, left, right⟩, cs)

/-- A statement. A table that is given no name has its own. -/
def statement : Reader Reading := after "SELECT * FROM ".toList fun cs => do
  let (table, cs) ← name cs
  let (named, cs) := (after " AS ".toList name cs).getD (table, cs)
  let (joins, cs) := many join cs
  let (conditions, cs) ← after " WHERE ".toList conditions cs
  some (⟨table, named, joins, conditions⟩, cs)

end Reader

def readStatement (text : String) : Option Reading :=
  match Reader.statement text.toList with
  | some (reading, []) => some reading
  | _ => none

end FilterQuery.Sql
