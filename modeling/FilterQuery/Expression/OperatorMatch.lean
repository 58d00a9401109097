import FilterQuery.Operator

/-!
The operator in a text: the first in the order of the tables that occurs anywhere, at its leftmost
place.
-/
namespace FilterQuery.Expression

open Text

/-- An operator and where it stands in a text. -/
structure OperatorMatch where
  operator : Operator
  place : Occurrence

namespace OperatorMatch

def field (m : OperatorMatch) : List Char := trim m.place.before

def rest (m : OperatorMatch) : List Char := trim m.place.after

end OperatorMatch

/-- What is looked for in a text, and the operator it stands for: the words with a blank in front
of each, and then the signs. -/
def needles : List (List Char × Operator) :=
  Operator.keywords.map (fun (word, operator) => (' ' :: word.toList, operator)) ++
    Operator.comparisons.map (fun (sign, operator) => (sign.toList, operator))

def operator? (cs : List Char) : Option OperatorMatch :=
  needles.findSome? fun (needle, operator) => (find? needle cs).map (⟨operator, ·⟩)

end FilterQuery.Expression
