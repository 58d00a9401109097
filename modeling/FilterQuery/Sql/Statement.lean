import FilterQuery.Operator

/-!
Statements that select the rows of a table under conditions, joined with the tables that the
conditions speak of.
-/
namespace FilterQuery.Sql

/-- A column of a table, by the name that the table has in the statement. -/
structure Column where
  table : String
  name : String
deriving DecidableEq

/-- A constant. A number is kept in the digits in which it is written. -/
inductive Literal where
  | null
  | bool (b : Bool)
  | number (digits : String)
  | text (s : String)
deriving DecidableEq

/-- The comparisons of a column with a constant. -/
inductive Comparison where
  | eq
  | neq
  | gt
  | gte
  | lt
  | lte
deriving DecidableEq

/-- A condition on a row. That a column is in no list at all, or that it is not, does not depend on
the column and is a constant. -/
inductive Term where
  | isNull (column : Column) (negated : Bool)
  | compare (column : Column) (comparison : Comparison) (value : Literal)
  | like (column : Column) (pattern : String)
  | isIn (column : Column) (negated : Bool) (first : Literal) (others : List Literal)
  | constant (holds : Bool)
deriving DecidableEq

/-- A table joined to those before it where a column of its own equals a column of theirs. -/
structure Join where
  table : String
  name : String
  column : Column
  equals : Column
deriving DecidableEq

/-- A statement: a table and its name, the tables joined to it, and conditions of which all, or at
least one, are to hold. -/
structure Statement where
  table : String
  name : String
  joins : List Join
  connective : Connective
  terms : List Term
deriving DecidableEq

end FilterQuery.Sql
