import FilterQuery.Entity
import FilterQuery.Fault
import FilterQuery.Table

/-!
Catalogs of entities, and the questions that are put to them.
-/
namespace FilterQuery

abbrev Catalog := Table Entity

namespace Catalog

def entity (c : Catalog) (name : String) : Except Fault Entity :=
  match c.get? name with
  | some e => .ok e
  | none => .error (.unknownEntity name)

def hasField (c : Catalog) (entity field : String) : Except Fault Bool :=
  (c.entity entity).map (·.hasField field)

def fields (c : Catalog) (entity : String) : Except Fault (List String) :=
  (c.entity entity).map (·.fields)

def isAssociation (c : Catalog) (entity name : String) : Except Fault Bool :=
  (c.entity entity).map fun e => (e.association? name).isSome

def association (c : Catalog) (entity name : String) : Except Fault Association := do
  let e ← c.entity entity
  match e.association? name with
  | some a => .ok a
  | none => .error (.noAssociation (shortName entity) name e.associationNames)

def associations (c : Catalog) (entity : String) : Except Fault (List String) :=
  (c.entity entity).map (·.associationNames)

end Catalog

end FilterQuery
