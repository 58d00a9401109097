import FilterQuery.Sql.Statement

/-!
The text of statements. Names stand in double quotes and texts in single quotes; both are written so
that no character of theirs can end the quotation.
-/
namespace FilterQuery.Sql

/-- The characters of a name between double quotes: a double quote is written twice. -/
def doubled : List Char → List Char
  | [] => []
  | c :: cs => if c == '"' then '"' :: '"' :: doubled cs else c :: doubled cs

/-- A name between double quotes. -/
def quotedName (name : String) : List Char := '"' :: doubled name.toList ++ ['"']

/-- What stands behind a backslash for a character that is not written as it is. -/
def escapeCode? (c : Char) : Option Char :=
  if c == '\\' || c == '"' || c == '\'' then some c
  else if c == '\x00' then some '0'
  else if c == '\x08' then some 'b'
  else if c == '\t' then some 't'
  else if c == '\x1a' then some 'z'
  else if c == '\n' then some 'n'
  else if c == '\r' then some 'r'
  else none

/-- The characters of a text between single quotes. -/
def escaped : List Char → List Char
  | [] => []
  | c :: cs =>
    match escapeCode? c with
    | some code => '\\' :: code :: escaped cs
    | none => c :: escaped cs

/-- A text between single quotes, with a mark in front if backslashes are to be undone. -/
def quotedText (s : String) : List Char :=
  let inner := escaped s.toList
  (if inner.contains '\\' then ['E'] else []) ++ '\'' :: inner ++ ['\'']

namespace Literal

def render : Literal → List Char
  | null => "NULL".toList
  | bool true => "TRUE".toList
  | bool false => "FALSE".toList
  | number digits => digits.toList
  | text s => quotedText s

end Literal

def Column.render (c : Column) : List Char := quotedName c.table ++ '.' :: quotedName c.name

def Comparison.sign : Comparison → List Char
  | .eq => "=".toList
  | .neq => "<>".toList
  | .gt => ">".toList
  | .gte => ">=".toList
  | .lt => "<".toList
  | .lte => "<=".toList

namespace Term

def renderOthers : List Literal → List Char
  | [] => []
  | l :: others => ", ".toList ++ l.render ++ renderOthers others

def render : Term → List Char
  | isNull column negated =>
    column.render ++ (if negated then " IS NOT NULL" else " IS NULL").toList
  | compare column comparison value =>
    column.render ++ ' ' :: comparison.sign ++ ' ' :: value.render
  | like column pattern => column.render ++ " LIKE ".toList ++ quotedText pattern
  | isIn column negated first others =>
    column.render ++ (if negated then " NOT IN (" else " IN (").toList ++ first.render ++
      renderOthers others ++ [')']
  | constant holds => (if holds then "1 = 1" else "1 = 2").toList

end Term

def Join.render (j : Join) : List Char :=
  " LEFT JOIN ".toList ++ quotedName j.table ++ " AS ".toList ++ quotedName j.name ++
    " ON ".toList ++ j.column.render ++ " = ".toList ++ j.equals.render

namespace Statement

def renderOthers (connective : Connective) : List Term → List Char
  | [] => []
  | t :: terms =>
    ' ' :: connective.keyword.toList ++ ' ' :: t.render ++ renderOthers connective terms

/-- The text of the conditions of a statement. Of no conditions all hold, and not one holds. -/
def renderTerms (connective : Connective) : List Term → List Char
  | [] => (if connective = .and then " WHERE TRUE" else " WHERE FALSE").toList
  | t :: terms => " WHERE ".toList ++ t.render ++ renderOthers connective terms

/-- The characters of a statement. A table is given a name if that is not its own. -/
def renderChars (s : Statement) : List Char :=
  "SELECT * FROM ".toList ++ quotedName s.table ++
    (if s.name = s.table then [] else " AS ".toList ++ quotedName s.name) ++
    s.joins.flatMap Join.render ++ renderTerms s.connective s.terms

def render (s : Statement) : String := String.ofList s.renderChars

end Statement

end FilterQuery.Sql
