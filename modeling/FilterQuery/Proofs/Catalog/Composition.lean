import FilterQuery.Proofs.Catalog.Walks

/-!
Paths of associations put together from two with a dot between them. The walk along such a path is the walk
along the first part and then, from where that leads, the walk along the second (`chain_append_dot`). Main
statement: chains are put together alike, and so are the places they lead to (`walks_compose`).
-/
namespace FilterQuery

open Text

/-- The fault as it is told of another path. -/
def Fault.onPath (path : String) : Fault → Fault
  | .unknownMember m => .unknownMember { m with path := path }
  | fault => fault

namespace Catalog

variable {c : Catalog} {entity : String}

theorem step_onPath (c : Catalog) (path other entity segment : String) :
    c.step other entity segment = (c.step path entity segment).mapError (·.onPath other) := by
  unfold step Catalog.entity
  cases c.get? entity with
  | none => rfl
  | some e =>
    simp only [ok_bind]
    cases e.association? segment <;> rfl

/-- A walk tells the same of every path that it is made for. -/
theorem walk_onPath (c : Catalog) (path other entity : String) (names : List String) :
    c.walk other entity names = (c.walk path entity names).mapError (·.onPath other) := by
  induction names generalizing entity with
  | nil => rfl
  | cons segment names ih =>
    rw [walk, walk, step_onPath c path other]
    cases c.step path entity segment with
    | error fault => rfl
    | ok a =>
      show (c.walk other a.target names >>= _) = Except.mapError _ (c.walk path a.target names >>= _)
      rw [ih]
      cases c.walk path a.target names <;> rfl

/-- A walk along the names of two lists goes on from where the first of them leads. -/
theorem walk_append (c : Catalog) (path entity : String) (front back : List String) :
    c.walk path entity (front ++ back) = (do
      let before ← c.walk path entity front
      (c.walk path (terminal entity before) back).map (before ++ ·)) := by
  induction front generalizing entity with
  | nil =>
    show c.walk path entity back = Except.map _ (c.walk path entity back)
    cases c.walk path entity back <;> rfl
  | cons segment front ih =>
    rw [List.cons_append, walk, walk]
    cases c.step path entity segment with
    | error fault => rfl
    | ok a =>
      show (c.walk path a.target (front ++ back) >>= _) = (c.walk path a.target front >>= _) >>= _
      rw [ih]
      cases c.walk path a.target front with
      | error fault => rfl
      | ok before =>
        show Except.map _ (c.walk path (terminal a.target before) back) >>= _ =
          Except.map _ (c.walk path (terminal a.target before) back)
        cases c.walk path (terminal a.target before) back <;> rfl

/-- The chain of a path in two parts is that of the first part with, behind it, the chain of the second
from the entity that the first leads to. What goes wrong in either is told of the whole path. -/
theorem chain_append_dot (c : Catalog) (entity p q : String) :
    c.chain entity (p ++ "." ++ q) = Except.mapError (·.onPath (p ++ "." ++ q)) (do
      let before ← c.chain entity p
      (c.chain (terminal entity before) q).map (before ++ ·)) := by
  rw [chain, segments_append_dot, walk_append, walk_onPath c p, chain]
  cases c.walk p entity (segments p) with
  | error fault => rfl
  | ok before =>
    show Except.map _ (c.walk (p ++ "." ++ q) (terminal entity before) (segments q)) =
      Except.mapError _ (Except.map _ (c.walk q (terminal entity before) (segments q)))
    rw [walk_onPath c q]
    cases c.walk q (terminal entity before) (segments q) <;> rfl

theorem chain_ne_nil {path : String} {steps : List Association} (ok : c.chain entity path = .ok steps) :
    steps ≠ [] := by
  rintro rfl
  obtain ⟨last, atEnd⟩ := getLast?_of_chain ok
  cases atEnd

/-- Where steps from an entity lead. -/
def destination (entity : String) (steps : List Association) : Destination :=
  ⟨pathOf steps, terminal entity steps, (steps.getLast?.map (·.name)).getD ""⟩

theorem resolveAssociation_eq_ok_iff_chain {path : String} {d : Destination} :
    c.resolveAssociation entity path = .ok d ↔
      ∃ steps, c.chain entity path = .ok steps ∧ d = destination entity steps := by
  rw [resolveAssociation_eq, map_eq_ok_iff]
  rfl

theorem destination_append {before after : List Association} (first : before ≠ []) (second : after ≠ []) :
    destination entity (before ++ after) =
      ⟨pathOf before ++ "." ++ pathOf after, terminal (terminal entity before) after,
        (destination (terminal entity before) after).property⟩ := by
  have names : joinDots (before.map (·.name) ++ after.map (·.name)) =
      joinDots (before.map (·.name)) ++ "." ++ joinDots (after.map (·.name)) :=
    joinDots_append (by simpa using first) (by simpa using second)
  obtain ⟨last, atEnd⟩ := Option.ne_none_iff_exists'.mp (mt List.getLast?_eq_none_iff.mp second)
  rw [← List.map_append] at names
  simp only [destination, pathOf, names, terminal_append, List.getLast?_append, atEnd, Option.some_or]

theorem resolveAssociation_append_dot {p q : String} {d : Destination} :
    c.resolveAssociation entity (p ++ "." ++ q) = .ok d ↔ ∃ r t,
      c.resolveAssociation entity p = .ok r ∧ c.resolveAssociation r.entity q = .ok t ∧
        d = ⟨r.path ++ "." ++ t.path, t.entity, t.property⟩ := by
  simp only [resolveAssociation_eq_ok_iff_chain, chain_append_dot, mapError_eq_ok_iff, bind_eq_ok_iff,
    map_eq_ok_iff]
  constructor
  · rintro ⟨_, ⟨before, first, after, second, rfl⟩, rfl⟩
    exact ⟨_, _, ⟨before, first, rfl⟩, ⟨after, second, rfl⟩,
      destination_append (chain_ne_nil first) (chain_ne_nil second)⟩
  · rintro ⟨_, _, ⟨before, first, rfl⟩, ⟨after, second, rfl⟩, rfl⟩
    exact ⟨_, ⟨before, first, after, second, rfl⟩,
      (destination_append (chain_ne_nil first) (chain_ne_nil second)).symm⟩

/-- A path of associations that is put together from two leads somewhere exactly if the first part does and
the second leads on from there. It then ends where the second part ends; its path is that of the two parts
with a dot between them, and its chain is the two chains, one behind the other. Else it fails as the first
part fails, or as the second part fails from where the first leads, which is then told of the whole path. -/
theorem walks_compose (c : Catalog) (entity p q : String) :
    (∀ d, c.resolveAssociation entity (p ++ "." ++ q) = .ok d ↔ ∃ r t,
      c.resolveAssociation entity p = .ok r ∧ c.resolveAssociation r.entity q = .ok t ∧
        d = ⟨r.path ++ "." ++ t.path, t.entity, t.property⟩) ∧
    (∀ steps, c.chain entity (p ++ "." ++ q) = .ok steps ↔ ∃ r before after,
      c.resolveAssociation entity p = .ok r ∧ c.chain entity p = .ok before ∧
        c.chain r.entity q = .ok after ∧ steps = before ++ after) ∧
    ∀ fault, c.resolveAssociation entity (p ++ "." ++ q) = .error fault ↔ ∃ first,
      (c.resolveAssociation entity p = .error first ∨
        ∃ r, c.resolveAssociation entity p = .ok r ∧ c.resolveAssociation r.entity q = .error first) ∧
      fault = first.onPath (p ++ "." ++ q) := by
  refine ⟨fun d => resolveAssociation_append_dot, fun steps => ?_, fun fault => ?_⟩
  · rw [chain_append_dot, mapError_eq_ok_iff]
    simp only [bind_eq_ok_iff, map_eq_ok_iff, resolveAssociation_eq_ok_iff_chain]
    constructor
    · rintro ⟨before, first, after, second, rfl⟩
      exact ⟨_, before, after, ⟨before, first, rfl⟩, first, second, rfl⟩
    · rintro ⟨_, before, after, ⟨other, same, rfl⟩, first, second, rfl⟩
      cases first.symm.trans same
      exact ⟨before, first, after, second, rfl⟩
  · rw [resolveAssociation_eq_error_iff, chain_append_dot, mapError_eq_error_iff]
    simp only [bind_eq_error_iff, map_eq_error_iff, resolveAssociation_eq_error_iff,
      resolveAssociation_eq_ok_iff_chain]
    refine exists_congr fun first => and_congr_left fun _ => or_congr_right ?_
    constructor
    · rintro ⟨before, front, failed⟩
      exact ⟨_, ⟨before, front, rfl⟩, failed⟩
    · rintro ⟨_, ⟨before, front, rfl⟩, failed⟩
      exact ⟨before, front, failed⟩

end Catalog

end FilterQuery
