import FilterQuery.Fault
import FilterQuery.Table
import FilterQuery.Text.Dotted

/-!
Aliases: short names for paths from the root, and a name for the root itself. A reference to a field
starts with an alias or does not, and is expanded to the path it stands for.
-/
namespace FilterQuery

open Text

/-- Aliases and the paths they stand for, and the alias of the root. -/
structure Registry where
  aliases : Table String
  main : Option String
deriving DecidableEq

/-- How a reference to a field came to its path. -/
inductive ReferenceKind where
  /-- It has no dot. -/
  | direct
  /-- It starts with an alias. -/
  | aliased
  /-- It starts with the alias of the root. -/
  | mainAlias
  /-- It has a dot and starts with no alias. -/
  | nested
deriving DecidableEq

structure Reference where
  path : String
  kind : ReferenceKind
  written : String
deriving DecidableEq

/-- Whether a text is an ASCII letter or underscore, followed by ASCII letters, digits and
underscores. -/
def isAliasName (name : String) : Bool :=
  match name.toList with
  | [] => false
  | c :: cs => (c.isAlpha || c == '_') && cs.all fun d => d.isAlphanum || d == '_'

namespace Registry

def empty : Registry := ⟨.empty, none⟩

instance : Inhabited Registry := ⟨empty⟩

def aliasFault? (r : Registry) (name : String) : Option AliasFault :=
  if !isAliasName name then some .malformed
  else
    match r.aliases.get? name with
    | some path => some (.registered path)
    | none => if r.main = some name then some .isMain else none

def register (r : Registry) (name path : String) : Except Fault Registry :=
  match r.aliasFault? name with
  | some fault => .error (.badAlias name fault)
  | none => .ok { r with aliases := r.aliases.insert name path }

/-- The registry with a name for the root, in place of any name that it had. -/
def setMain (r : Registry) (name : String) : Except Fault Registry :=
  match r.aliases.get? name with
  | some path => .error (.badAlias name (.takenFor path))
  | none => .ok { r with main := some name }

/-- The path that a reference stands for. Only the text before the first dot is looked up. -/
def resolve (r : Registry) (field : String) : Reference :=
  match splitHead? field with
  | none => ⟨field, .direct, field⟩
  | some (head, rest) =>
    match r.aliases.get? head with
    | some path => ⟨path ++ "." ++ rest, .aliased, field⟩
    | none =>
      if r.main = some head then ⟨rest, .mainAlias, field⟩ else ⟨field, .nested, field⟩

end Registry

end FilterQuery
