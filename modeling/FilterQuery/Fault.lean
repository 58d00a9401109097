import FilterQuery.ListPolicy

/-!
What can be wrong with an expression, an alias, a path or an entity, and how it is told.
-/
namespace FilterQuery

inductive AliasFault where
  /-- It is not a name. -/
  | malformed
  /-- It stands for the given path already. -/
  | registered (path : String)
  /-- It is the alias of the root. -/
  | isMain
  /-- It cannot be the alias of the root, as it stands for the given path. -/
  | takenFor (path : String)
deriving DecidableEq

def AliasFault.message (name : String) : AliasFault → String
  | malformed =>
    "Invalid alias '" ++ name ++ "': aliases must start with a letter or underscore and contain " ++
      "only letters, digits and underscores"
  | registered path => "Alias '" ++ name ++ "' is already registered for '" ++ path ++ "'"
  | isMain => "Alias '" ++ name ++ "' is already used as the main entity alias"
  | takenFor path =>
    "Main alias '" ++ name ++ "' conflicts with the alias registered for '" ++ path ++ "'"

inductive MemberKind where
  | field
  | association
deriving DecidableEq

/-- The members of the kind, as they are called where they are listed. -/
def MemberKind.plural : MemberKind → String
  | field => "fields"
  | association => "associations"

/-- A segment of a path that is no member of the entity it was looked for on. The entity is given
by its short name, and the members that it has instead are given in the order of declaration. -/
structure UnknownMember where
  kind : MemberKind
  entity : String
  segment : String
  path : String
  available : List String
deriving DecidableEq

namespace UnknownMember

/-- What is missing, in words. A segment that is the whole path is told without the path. -/
def summary (m : UnknownMember) : String :=
  if m.segment = m.path then
    let subject := match m.kind with
      | .field => "Property"
      | .association => "Association"
    subject ++ " '" ++ m.segment ++ "' does not exist on entity '" ++ m.entity ++ "'."
  else
    let subject := match m.kind with
      | .field => "Field"
      | .association => "Association"
    subject ++ " '" ++ m.segment ++ "' does not exist on entity '" ++ m.entity ++ "' in path '" ++
      m.path ++ "'."

/-- What is missing and what there is instead, in words. -/
def message (policy : ListPolicy) (m : UnknownMember) : String :=
  m.summary ++ " Available " ++ m.kind.plural ++ ": " ++
    (if m.available.isEmpty then "none" else policy.list m.available)

end UnknownMember

/-- What is wrong with a question. -/
inductive Fault where
  | noOperator (expression : String)
  | badAlias (name : String) (fault : AliasFault)
  /-- A segment of a path is no member of the entity that the path has reached. -/
  | unknownMember (member : UnknownMember)
  /-- The entity has no association of the name, and has the given ones. -/
  | noAssociation (entity name : String) (available : List String)
  /-- The association of the entity is many-to-many, so that one join does not reach its target. -/
  | manyToMany (entity association : String)
  /-- The catalog does not know the entity. -/
  | unknownEntity (entity : String)
deriving DecidableEq

/-- What is wrong, in words. The policy says how many alternatives are listed. -/
def Fault.message (policy : ListPolicy) : Fault → String
  | noOperator expression =>
    "Invalid expression '" ++ expression ++ "': no supported operator found"
  | badAlias name fault => fault.message name
  | unknownMember member => member.message policy
  | noAssociation entity name _ =>
    "Association '" ++ name ++ "' does not exist on entity '" ++ entity ++ "'"
  | manyToMany entity association =>
    "Association '" ++ association ++ "' on entity '" ++ entity ++
      "' is many-to-many and cannot be joined"
  | unknownEntity entity => "Unknown entity '" ++ entity ++ "'"

end FilterQuery
