import FilterQuery.Catalog
import FilterQuery.Json
import FilterQuery.ListPolicy

/-!
Configurations: the catalog, the tables of its entities, and how lists are shown in messages.
-/
namespace FilterQuery

/-- What a session is configured with. -/
structure Config where
  format : ListPolicy
  mapping : Table String
  entities : Catalog
deriving DecidableEq

namespace Config

def empty : Config := ⟨.standard, .empty, .empty⟩

end Config

def ListPolicy.toJson (p : ListPolicy) : Json :=
  .object [
    ("max_listed", (p.limit.map fun n => Json.number (.ofInt n)).getD .null),
    ("ellipsis", .string p.ellipsis)]

def Association.toJson (a : Association) : Json :=
  .object [("name", .string a.name), ("target", .string a.target), ("kind", .string a.kind.name)]

def Entity.toJson (e : Entity) : Json :=
  .object [
    ("fields", .array (e.fields.map .string)),
    ("associations", .array (e.associations.map Association.toJson))]

def Config.toJson (c : Config) : Json :=
  .object [
    ("format", c.format.toJson),
    ("table_mapping", .object (c.mapping.toList.map fun (entity, table) => (entity, .string table))),
    ("entities", .object (c.entities.toList.map fun (name, entity) => (name, entity.toJson)))]

end FilterQuery
