import FilterQuery.Alias
import FilterQuery.Catalog.Path
import FilterQuery.Filter
import FilterQuery.Sql.Statement
import FilterQuery.Text.Lowercase

/-!
The statement of a filter: the paths of its conditions are resolved, the tables along them are
joined once each, and each condition becomes a condition on a column.
-/
namespace FilterQuery

open Text

namespace Sql

def lowerName (entity : String) : String := lowercase (shortName entity)

/-- The table of an entity: the one it is mapped to, or else its short name in lower case. -/
def tableOf (mapping : Table String) (entity : String) : String :=
  (mapping.get? entity).getD (lowerName entity)

/-- One association of a path from the root: the path up to it, the entity and the table name it
starts at, and the association itself. -/
structure Hop where
  path : String
  source : String
  sourceName : String
  association : Association
deriving DecidableEq

/-- A path with one more segment. The segment alone follows the empty path. -/
def extendPath (path segment : String) : String :=
  if path.isEmpty then segment else path ++ "." ++ segment

/-- The associations of a path, given the path before them, and the entity that it leads to with
the name of its table. -/
def hopsFrom (before source sourceName : String) : List Association → List Hop
  | [] => []
  | a :: later =>
    let path := extendPath before a.name
    ⟨path, source, sourceName, a⟩ :: hopsFrom path a.target (undotted path) later

/-- The join of a hop. The key is kept by the table at the far end of a one-to-many association, and
at its near end for the others. -/
def Hop.join (mapping : Table String) (h : Hop) : Join :=
  let name := undotted h.path
  let (column, equals) : Column × Column :=
    if h.association.kind = .oneToMany then
      (⟨name, lowerName h.source ++ "_id"⟩, ⟨h.sourceName, "id"⟩)
    else
      (⟨name, "id"⟩, ⟨h.sourceName, h.association.name ++ "_id"⟩)
  ⟨tableOf mapping h.association.target, name, column, equals⟩

/-- The joined hops with one more, unless its path is joined already. -/
def addHop (joined : List Hop) (h : Hop) : Except Fault (List Hop) :=
  if joined.any (·.path = h.path) then .ok joined
  else if h.association.kind = .manyToMany then
    .error (.manyToMany (shortName h.source) h.association.name)
  else .ok (joined ++ [h])

/-- A constant as a statement holds it. A list is written as the text in which it is shown. -/
def literalOf : Value → Literal
  | .null => .null
  | .bool b => .bool b
  | .int i => .number (Value.int i).display
  | .float x => .number (Value.float x).display
  | .text s => .text s
  | .list items => .text (Value.list items).display

/-- The constants that a column is looked for among. -/
def literalsOf : Value → List Literal
  | .list items => items.map literalOf
  | v => [literalOf v]

def patternOf : Value → String
  | .text s => s
  | v => v.display

/-- The condition that a column is, or is not, among the constants. -/
def isInTerm (column : Column) (negated : Bool) : List Literal → Term
  | [] => .constant negated
  | first :: others => .isIn column negated first others

def termOf (column : Column) (operator : Operator) (value : Value) : Term :=
  match operator with
  | .eq => if value.isNull then .isNull column false else .compare column .eq (literalOf value)
  | .neq => if value.isNull then .isNull column true else .compare column .neq (literalOf value)
  | .gt => .compare column .gt (literalOf value)
  | .gte => .compare column .gte (literalOf value)
  | .lt => .compare column .lt (literalOf value)
  | .lte => .compare column .lte (literalOf value)
  | .like => .like column (patternOf value)
  | .inList => isInTerm column false (literalsOf value)
  | .notInList => isInTerm column true (literalsOf value)
  | .isNull => .isNull column false
  | .isNotNull => .isNull column true

end Sql

open Sql

/-- What filters are compiled with: the catalog, the aliases, and the tables of entities. -/
structure Compiler where
  catalog : Catalog
  aliases : Registry
  mapping : Table String

/-- The field of a condition as it was written, the path it stands for, and how it came to it. -/
structure ResolvedField where
  written : String
  path : String
  kind : ReferenceKind
deriving DecidableEq

/-- The statement of a filter, and the paths of its conditions. -/
structure Compiled where
  statement : Statement
  resolved : List ResolvedField
deriving DecidableEq

namespace Compiler

/-- The name of the root in statements: its alias, or else its table. -/
def rootName (c : Compiler) (root : String) : String :=
  c.aliases.main.getD (tableOf c.mapping root)

/-- What has been compiled so far: the hops that are joined, the conditions, and their paths. -/
structure Progress where
  joined : List Hop
  terms : List Term
  resolved : List ResolvedField

/-- The column at a path from the root, and the hops joined so far with those that it needs. -/
def column (c : Compiler) (root : String) (joined : List Hop) (path : String) :
    Except Fault (List Hop × Column) :=
  match splitLast? path with
  | none => .ok (joined, ⟨c.rootName root, path⟩)
  | some (associations, name) => do
    let steps ← c.catalog.chain root associations
    let joined ← (hopsFrom "" root (c.rootName root) steps).foldlM addHop joined
    .ok (joined, ⟨undotted associations, name⟩)

def addCondition (c : Compiler) (root : String) (p : Progress) (condition : Condition) :
    Except Fault Progress := do
  let reference := c.aliases.resolve condition.field
  let path ← c.catalog.resolveProperty root reference.path
  let (joined, column) ← c.column root p.joined path
  .ok {
    joined := joined
    terms := p.terms ++ [termOf column condition.operator condition.value]
    resolved := p.resolved ++ [⟨condition.field, path, reference.kind⟩] }

/-- The statement of a filter that starts at a root entity. -/
def compile (c : Compiler) (root : String) (filter : Filter) : Except Fault Compiled := do
  let done ← filter.conditions.foldlM (c.addCondition root) ⟨[], [], []⟩
  .ok {
    statement := {
      table := tableOf c.mapping root
      name := c.rootName root
      joins := done.joined.map (Hop.join c.mapping)
      connective := filter.connective.getD .and
      terms := done.terms }
    resolved := done.resolved }

end Compiler

end FilterQuery
