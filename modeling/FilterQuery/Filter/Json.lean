import FilterQuery.Filter
import FilterQuery.Json

/-!
Filters written out as JSON.
-/
namespace FilterQuery

open Decimal

def Decimal.Binary64.toJson (x : Binary64) : Json :=
  if x.isFinite then .number x.literal else .null

namespace Value

mutual

def toJson : Value → Json
  | null => .null
  | bool b => .bool b
  | int i => .number (.ofInt i.toInt)
  | float x => x.toJson
  | text s => .string s
  | list items => .array (itemsToJson items)

def itemsToJson : List Value → List Json
  | [] => []
  | item :: items => toJson item :: itemsToJson items

end

end Value

def Condition.toJson (c : Condition) : Json :=
  .object [("field", .string c.field), ("operator", .string c.operator.name),
    ("value", c.value.toJson), ("raw", .string c.raw)]

def Filter.toJson (f : Filter) : Json :=
  .object [("is_compound", .bool f.isCompound),
    ("logical_operator", (f.connective.map fun c => Json.string c.keyword).getD .null),
    ("conditions", .array (f.conditions.map Condition.toJson))]

end FilterQuery
