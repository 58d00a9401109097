import FilterQuery.Decimal.Shortest

/-!
The values that conditions compare with, and how they are shown.
-/
namespace FilterQuery

open Decimal

/-- A value of a condition. -/
inductive Value where
  | null
  | bool (b : Bool)
  | int (i : Int64)
  | float (x : Binary64)
  | text (s : String)
  | list (items : List Value)

namespace Value

instance : Inhabited Value := ⟨null⟩

def isNull : Value → Bool
  | null => true
  | _ => false

mutual

/-- A value as it is shown. Texts stand in single quotes as they are, and lists in parentheses. -/
def display : Value → String
  | null => "NULL"
  | bool true => "true"
  | bool false => "false"
  | int i => String.ofList (textOf i.toInt)
  | float x => String.ofList x.display
  | text s => "'" ++ s ++ "'"
  | list items => "(" ++ displayItems items ++ ")"

def displayItems : List Value → String
  | [] => ""
  | [item] => display item
  | item :: items => display item ++ ", " ++ displayItems items

end

mutual

/-- Whether two values are the same. A zero is not the same as the zero with the other sign. -/
def same : Value → Value → Bool
  | null, null => true
  | bool b, bool c => b == c
  | int i, int j => i == j
  | float x, float y => x == y
  | text s, text t => s == t
  | list items, list others => sameItems items others
  | _, _ => false

def sameItems : List Value → List Value → Bool
  | [], [] => true
  | item :: items, other :: others => same item other && sameItems items others
  | _, _ => false

end

mutual

theorem same_iff (v w : Value) : v.same w ↔ v = w := by
  cases v with
  | list items => cases w <;> simp [same, sameItems_iff items]
  | _ => cases w <;> simp [same]

theorem sameItems_iff (items others : List Value) : sameItems items others ↔ items = others := by
  cases items with
  | nil => cases others <;> simp [sameItems]
  | cons item items =>
    cases others with
    | nil => simp [sameItems]
    | cons other others => simp [sameItems, same_iff item other, sameItems_iff items others]

end

instance : DecidableEq Value := fun v w => decidable_of_iff _ (same_iff v w)

end Value

end FilterQuery
