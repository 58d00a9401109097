/-!
Entities: their names, and the fields and associations declared on them.
-/
namespace FilterQuery

/-- The part of a name after its last separator, given the part after the last separator so far.
Separators are two colons, a backslash and a slash. -/
def afterSeparators (sofar : List Char) : List Char → List Char
  | [] => sofar
  | c :: cs =>
    if c == '\\' || c == '/' then afterSeparators cs cs
    else
      match c, cs with
      | ':', ':' :: rest => afterSeparators rest cs
      | _, _ => afterSeparators sofar cs

/-- The short name of an entity: what follows the last separator in its name. -/
def shortName (entity : String) : String :=
  String.ofList (afterSeparators entity.toList entity.toList)

/-- How many entities there may be at the two ends of an association. -/
inductive AssociationKind where
  | manyToOne
  | oneToMany
  | manyToMany
  | oneToOne
deriving DecidableEq

namespace AssociationKind

def all : List AssociationKind := [manyToOne, oneToMany, manyToMany, oneToOne]

def name : AssociationKind → String
  | manyToOne => "many_to_one"
  | oneToMany => "one_to_many"
  | manyToMany => "many_to_many"
  | oneToOne => "one_to_one"

def ofName? (name : String) : Option AssociationKind := all.find? (·.name = name)

/-- Whether there may be several entities at the far end. -/
def isToMany : AssociationKind → Bool
  | oneToMany | manyToMany => true
  | manyToOne | oneToOne => false

end AssociationKind

/-- An association of an entity: its name, the entity it leads to, and its kind. -/
structure Association where
  name : String
  target : String
  kind : AssociationKind
deriving DecidableEq

/-- The fields and the associations of an entity in the order of declaration. -/
structure Entity where
  fields : List String
  associations : List Association
deriving DecidableEq

namespace Entity

def empty : Entity := ⟨[], []⟩

def hasField (e : Entity) (name : String) : Bool := e.fields.contains name

/-- The association of the name, the first of several. -/
def association? (e : Entity) (name : String) : Option Association :=
  e.associations.find? (·.name = name)

def associationNames (e : Entity) : List String := e.associations.map (·.name)

end Entity

end FilterQuery
