/-!
How lists of names are shown in messages.
-/
namespace FilterQuery

/-- Names with a comma and a blank between two. -/
def commaSeparated : List String → String
  | [] => ""
  | [name] => name
  | name :: names => name ++ ", " ++ commaSeparated names

/-- How many names of a list are shown, all of them if there is no limit, and what stands for the
others. -/
structure ListPolicy where
  limit : Option Nat
  ellipsis : String
deriving DecidableEq

namespace ListPolicy

def standard : ListPolicy := ⟨some 10, "..."⟩

def unlimited : ListPolicy := { standard with limit := none }

/-- A list of names as it is shown. -/
def list (policy : ListPolicy) (names : List String) : String :=
  match policy.limit with
  | none => commaSeparated names
  | some limit =>
    if names.length ≤ limit then commaSeparated names
    else commaSeparated (names.take limit ++ [policy.ellipsis])

end ListPolicy

end FilterQuery
