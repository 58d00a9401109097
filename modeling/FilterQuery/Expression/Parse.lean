import FilterQuery.Expression.OperatorMatch
import FilterQuery.Expression.Separator
import FilterQuery.Fault
import FilterQuery.Filter
import FilterQuery.Value.Coerce

/-!
The reading of expressions: a condition is a field, an operator and a value, and a filter is one
condition, or conditions with one connective between them.
-/
namespace FilterQuery

open Text

/-- The condition that a text consists of, blanks around it aside. -/
def Condition.ofChars (cs : List Char) : Except Fault Condition :=
  let expression := trim cs
  match Expression.operator? expression with
  | none => .error (.noOperator (String.ofList expression))
  | some found => .ok {
      field := String.ofList found.field
      operator := found.operator
      value := if found.operator.isNullCheck then .null else Value.ofToken found.rest
      raw := String.ofList expression }

def Condition.parse (expression : String) : Except Fault Condition :=
  Condition.ofChars expression.toList

def Filter.ofChars (cs : List Char) : Except Fault Filter :=
  let expression := trim cs
  match Expression.connective? expression with
  | some connective =>
    ((Expression.split connective expression).mapM Condition.ofChars).map (Filter.compound connective)
  | none => (Condition.ofChars expression).map Filter.single

/-- The filter that an expression consists of: conditions with `AND` between them if it occurs
between blanks, else with `OR` between them, and else one condition. -/
def Filter.parse (expression : String) : Except Fault Filter :=
  Filter.ofChars expression.toList

end FilterQuery
