import FilterQuery.Catalog
import FilterQuery.Text.Dotted

/-!
Dotted paths through a catalog. A path starts at an entity and goes from association to association;
a path to a property ends in a field of the entity it has reached.
-/
namespace FilterQuery.Catalog

open Text

/-- The step from an entity along an association, for a path that is told if there is no such
association. -/
def step (c : Catalog) (path entity segment : String) : Except Fault Association := do
  let e ← c.entity entity
  match e.association? segment with
  | some a => .ok a
  | none =>
    .error (.unknownMember ⟨.association, shortName entity, segment, path, e.associationNames⟩)

/-- The steps from an entity along associations, one after another. -/
def walk (c : Catalog) (path : String) : String → List String → Except Fault (List Association)
  | _, [] => .ok []
  | entity, segment :: segments => do
    let a ← c.step path entity segment
    let later ← c.walk path a.target segments
    .ok (a :: later)

/-- The entity that steps from an entity lead to. -/
def terminal (entity : String) : List Association → String
  | [] => entity
  | a :: later => terminal a.target later

def pathOf (steps : List Association) : String := joinDots (steps.map (·.name))

/-- The associations along a path that consists of associations only. -/
def chain (c : Catalog) (entity path : String) : Except Fault (List Association) :=
  c.walk path entity (segments path)

/-- Where a path of associations ends: the path, the entity it leads to, and its last
association. -/
structure Destination where
  path : String
  entity : String
  property : String
deriving DecidableEq

/-- How far a path of associations has been followed: the names of its associations so far, the
entity that they lead to, and the last of them. -/
structure Trail where
  names : List String
  entity : String
  property : String

def follow (c : Catalog) (path : String) (t : Trail) (segment : String) : Except Fault Trail := do
  let a ← c.step path t.entity segment
  .ok ⟨t.names ++ [a.name], a.target, a.name⟩

/-- Where a path that consists of associations only ends. -/
def resolveAssociation (c : Catalog) (entity path : String) : Except Fault Destination := do
  let t ← (segments path).foldlM (c.follow path) ⟨[], entity, ""⟩
  .ok ⟨joinDots t.names, t.entity, t.property⟩

/-- The check that an entity has a field, for a path that is told if it has not. -/
def checkField (c : Catalog) (path entity field : String) : Except Fault Unit := do
  let e ← c.entity entity
  if e.hasField field then .ok ()
  else .error (.unknownMember ⟨.field, shortName entity, field, path, e.fields⟩)

/-- The path to a property of an entity: associations, and a field of the entity they lead to. -/
def resolveProperty (c : Catalog) (entity path : String) : Except Fault String :=
  match splitLast? path with
  | none => do
    c.checkField path entity path
    .ok path
  | some (associations, field) => do
    let steps ← c.walk path entity (segments associations)
    c.checkField path (terminal entity steps) field
    .ok (joinDots (steps.map (·.name) ++ [field]))

end FilterQuery.Catalog
