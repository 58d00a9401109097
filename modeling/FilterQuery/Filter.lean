import FilterQuery.Operator
import FilterQuery.Value

/-!
Conditions on fields, and filters made of them.
-/
namespace FilterQuery

/-- A condition on a field. The text it was read from is kept with it. -/
structure Condition where
  field : String
  operator : Operator
  value : Value
  raw : String
deriving DecidableEq

/-- A condition as it is shown: the field, the operator, and the value if the operator takes
one. -/
def Condition.display (c : Condition) : String :=
  if c.operator.isNullCheck then c.field ++ " " ++ c.operator.text
  else c.field ++ " " ++ c.operator.text ++ " " ++ c.value.display

/-- Conditions of which all, or at least one, are to hold. -/
structure Filter where
  isCompound : Bool
  connective : Option Connective
  conditions : List Condition
deriving DecidableEq

namespace Filter

def single (condition : Condition) : Filter := ⟨false, none, [condition]⟩

def compound (connective : Connective) (conditions : List Condition) : Filter :=
  ⟨true, some connective, conditions⟩

end Filter

end FilterQuery
