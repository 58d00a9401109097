import FilterQuery.Alias

/-!
Several registries side by side, each under a key, and what is done to them one after another.
-/
namespace FilterQuery

/-- What is done to one of several registries. -/
inductive RegistryAction (Key : Type) where
  | register (key : Key) (name path : String)
  | setMain (key : Key) (name : String)
  | clear (key : Key)
  /-- The registry under the second key is overwritten with the one under the first. -/
  | copyTo (source target : Key)
  /-- A copy of the registry under the first key is kept as a new one under the second. -/
  | snapshot (source target : Key)

abbrev Registries (Key : Type) := Key → Registry

namespace Registries

variable {Key : Type} [DecidableEq Key]

def put (rs : Registries Key) (key : Key) (r : Registry) : Registries Key :=
  fun other => if other = key then r else rs other

/-- The registries with another one under the key, or as they were if there is a fault instead. -/
def attempt (rs : Registries Key) (key : Key) : Except Fault Registry → Registries Key
  | .ok r => rs.put key r
  | .error _ => rs

def step (rs : Registries Key) : RegistryAction Key → Registries Key
  | .register key name path => rs.attempt key ((rs key).register name path)
  | .setMain key name => rs.attempt key ((rs key).setMain name)
  | .clear key => rs.put key .empty
  | .copyTo source target | .snapshot source target => rs.put target (rs source)

/-- The registries after some actions, all of them empty at first. -/
def run (actions : List (RegistryAction Key)) : Registries Key :=
  actions.foldl step fun _ => .empty

end Registries

end FilterQuery
