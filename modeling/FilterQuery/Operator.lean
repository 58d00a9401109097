import FilterQuery.Text.Blank
import FilterQuery.Text.Search

/-!
The operators of conditions and the words between conditions, with the tables in whose order they
are looked for.
-/
namespace FilterQuery

open Text

/-- What a condition says of a field. -/
inductive Operator where
  | eq
  | neq
  | gt
  | gte
  | lt
  | lte
  | like
  | inList
  | notInList
  | isNull
  | isNotNull
deriving DecidableEq

namespace Operator

def name : Operator → String
  | eq => "eq"
  | neq => "neq"
  | gt => "gt"
  | gte => "gte"
  | lt => "lt"
  | lte => "lte"
  | like => "like"
  | inList => "in"
  | notInList => "not_in"
  | isNull => "is_null"
  | isNotNull => "is_not_null"

/-- The operator as it is written in expressions. Of the two spellings of inequality it is the
one with an exclamation mark. -/
def text : Operator → String
  | eq => "="
  | neq => "!="
  | gt => ">"
  | gte => ">="
  | lt => "<"
  | lte => "<="
  | like => "LIKE"
  | inList => "IN"
  | notInList => "NOT IN"
  | isNull => "IS NULL"
  | isNotNull => "IS NOT NULL"

/-- The operators that take no value. -/
def isNullCheck : Operator → Bool
  | isNull | isNotNull => true
  | _ => false

/-- Operators that are words, each before those whose text is part of its own. -/
def keywords : List (String × Operator) := [
  ("NOT IN", notInList), ("IS NOT NULL", isNotNull), ("IS NULL", isNull), ("LIKE", like),
  ("IN", inList)]

/-- Operators that are signs, each before those whose text is part of its own. -/
def comparisons : List (String × Operator) := [
  ("!=", neq), ("<>", neq), (">=", gte), ("<=", lte), (">", gt), ("<", lt), ("=", eq)]

/-- The operator that a text consists of, blanks around it and the case of letters aside. -/
def ofText? (token : String) : Option Operator :=
  ((keywords ++ comparisons).find? fun (spelling, _) =>
    sameText spelling.toList (trim token.toList)).map (·.2)

end Operator

inductive Connective where
  | and
  | or
deriving DecidableEq

namespace Connective

def keyword : Connective → String
  | .and => "AND"
  | .or => "OR"

/-- The connectives in the order in which they are looked for. -/
def all : List Connective := [.and, .or]

end Connective

end FilterQuery
