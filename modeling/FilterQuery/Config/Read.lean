import FilterQuery.Config
import FilterQuery.Json.Decode

/-!
Configurations read from JSON. Parts that are left out have their usual values, an association
excepted, of which every part is needed.
-/
namespace FilterQuery

open Json

/-- A field that is kept as an optional value until all fields are read. -/
def optionalField {σ α : Type} (name : String) (get : σ → Option α) (set : σ → α → σ)
    (reader : Draft → Except Failure α) : RecordField σ where
  name := name
  isRead sofar := (get sofar).isSome
  read sofar draft := (reader draft).map (set sofar)

def required {α : Type} : Option α → Except Failure α
  | some a => .ok a
  | none => .error .mismatched

structure ListPolicyDraft where
  limit : Option (Option Nat)
  ellipsis : Option String

def ListPolicy.read (draft : Draft) : Except Failure ListPolicy := do
  let parts ← draft.record [
    optionalField "max_listed" ListPolicyDraft.limit ({ · with limit := some · }) Draft.limit,
    optionalField "ellipsis" ListPolicyDraft.ellipsis ({ · with ellipsis := some · }) Draft.text]
    ⟨none, none⟩
  .ok ⟨parts.limit.getD standard.limit, parts.ellipsis.getD standard.ellipsis⟩

structure AssociationDraft where
  name : Option String
  target : Option String
  kind : Option AssociationKind

def Association.read (draft : Draft) : Except Failure Association := do
  let parts ← draft.record [
    optionalField "name" AssociationDraft.name ({ · with name := some · }) Draft.text,
    optionalField "target" AssociationDraft.target ({ · with target := some · }) Draft.text,
    optionalField "kind" AssociationDraft.kind ({ · with kind := some · })
      (Draft.oneOf AssociationKind.ofName?)]
    ⟨none, none, none⟩
  .ok ⟨← required parts.name, ← required parts.target, ← required parts.kind⟩

structure EntityDraft where
  fields : Option (List String)
  associations : Option (List Association)

def Entity.read (draft : Draft) : Except Failure Entity := do
  let parts ← draft.record [
    optionalField "fields" EntityDraft.fields ({ · with fields := some · }) (Draft.list Draft.text),
    optionalField "associations" EntityDraft.associations ({ · with associations := some · })
      (Draft.list Association.read)]
    ⟨none, none⟩
  .ok ⟨parts.fields.getD [], parts.associations.getD []⟩

structure ConfigDraft where
  format : Option ListPolicy
  mapping : Option (Table String)
  entities : Option Catalog

namespace Config

def read (draft : Draft) : Except Failure Config := do
  let parts ← draft.record [
    optionalField "format" ConfigDraft.format ({ · with format := some · }) ListPolicy.read,
    optionalField "table_mapping" ConfigDraft.mapping ({ · with mapping := some · })
      (Draft.table Draft.text),
    optionalField "entities" ConfigDraft.entities ({ · with entities := some · })
      (Draft.table Entity.read)]
    ⟨none, none, none⟩
  .ok ⟨parts.format.getD .standard, parts.mapping.getD .empty, parts.entities.getD .empty⟩

def ofText (text : String) : Except Failure Config := readText read text

end Config

end FilterQuery
