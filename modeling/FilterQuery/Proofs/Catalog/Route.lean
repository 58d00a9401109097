import FilterQuery.Catalog.Path
import FilterQuery.Proofs.Outcome
import FilterQuery.Proofs.Text.Dotted

/-!
Routes through a catalog: associations of which each is declared on the entity that the one before
it leads to. Main statement: a path to a property resolves to itself, and does so exactly if its
segments but the last are a route and the last is a field of the entity at its end
(`resolveProperty_eq_ok_iff`).
-/
namespace FilterQuery

open Text

namespace Catalog

variable {c : Catalog}

/-- A path of several associations goes on from the path of all but the last. -/
theorem eq_pathOf_append_dot {path : String} {before : List Association} {a : Association}
    (names : segments path = (before ++ [a]).map (·.name)) (nonempty : before ≠ []) :
    path = pathOf before ++ "." ++ a.name := by
  rw [← joinDots_segments path, names, List.map_append,
    joinDots_append (by simpa using nonempty) (by simp)]
  rfl

/-- The associations follow one another from an entity on: each is what the entity reached so far
has under its name. -/
inductive Route (c : Catalog) : String → List Association → Prop
  | start (entity : String) : Route c entity []
  | step {entity : String} {e : Entity} {a : Association} {later : List Association} :
      c.get? entity = some e → e.association? a.name = some a → Route c a.target later →
      Route c entity (a :: later)

theorem entity_eq_ok_iff {name : String} {e : Entity} :
    c.entity name = .ok e ↔ c.get? name = some e := by
  unfold entity
  cases c.get? name <;> simp

theorem association?_name {e : Entity} {name : String} {a : Association}
    (found : e.association? name = some a) : a.name = name := by
  simpa using List.find?_some found

theorem step_eq_ok_iff {path entity segment : String} {a : Association} :
    c.step path entity segment = .ok a ↔
      ∃ e, c.get? entity = some e ∧ e.association? segment = some a := by
  unfold step
  rw [bind_eq_ok_iff]
  simp only [entity_eq_ok_iff]
  apply exists_congr
  intro e
  apply and_congr_right
  intro _
  cases e.association? segment <;> simp

/-- A walk succeeds exactly along the names of a route, whatever path is told on failure. -/
theorem walk_eq_ok_iff {path entity : String} {names : List String} {steps : List Association} :
    c.walk path entity names = .ok steps ↔
      c.Route entity steps ∧ steps.map (·.name) = names := by
  induction names generalizing entity steps with
  | nil =>
    constructor
    · intro ok
      cases ok
      exact ⟨.start entity, rfl⟩
    · rintro ⟨_, empty⟩
      rw [List.map_eq_nil_iff] at empty
      rw [empty]
      rfl
  | cons segment names ih =>
    simp only [walk, bind_eq_ok_iff, step_eq_ok_iff, ih]
    constructor
    · rintro ⟨a, ⟨e, declared, found⟩, later, ⟨route, named⟩, same⟩
      cases same
      have name := association?_name found
      exact ⟨.step declared (name ▸ found) route, by simp [name, named]⟩
    · rintro ⟨route, named⟩
      cases route with
      | start => simp at named
      | @step _ e a later declared found route =>
        obtain ⟨name, rest⟩ := List.cons_eq_cons.mp named
        exact ⟨a, ⟨e, declared, name ▸ found⟩, later, ⟨route, rest⟩, rfl⟩

/-- A route is determined by the names along it. -/
theorem Route.eq_of_names {entity : String} {first second : List Association}
    (one : c.Route entity first) (other : c.Route entity second)
    (names : first.map (·.name) = second.map (·.name)) : first = second := by
  have atFirst : c.walk "" entity (second.map (·.name)) = .ok first := walk_eq_ok_iff.mpr ⟨one, names⟩
  have atSecond : c.walk "" entity (second.map (·.name)) = .ok second :=
    walk_eq_ok_iff.mpr ⟨other, rfl⟩
  rw [atFirst] at atSecond
  cases atSecond
  rfl

theorem terminal_append (entity : String) (before after : List Association) :
    terminal entity (before ++ after) = terminal (terminal entity before) after := by
  induction before generalizing entity with
  | nil => rfl
  | cons a before ih => exact ih a.target

theorem Route.append_iff {entity : String} {before after : List Association} :
    c.Route entity (before ++ after) ↔
      c.Route entity before ∧ c.Route (terminal entity before) after := by
  induction before generalizing entity with
  | nil => exact ⟨fun route => ⟨.start entity, route⟩, fun ⟨_, route⟩ => route⟩
  | cons a before ih =>
    constructor
    · intro route
      cases route with
      | step declared found route =>
        obtain ⟨front, back⟩ := ih.mp route
        exact ⟨.step declared found front, back⟩
    · rintro ⟨front, back⟩
      cases front with
      | step declared found front => exact .step declared found (ih.mpr ⟨front, back⟩)

/-- A path leads along the associations to the field: its segments are their names and the field,
the associations are a route from the entity, and the entity at its end has the field. -/
structure Leads (c : Catalog) (entity path : String) (steps : List Association) (field : String) :
    Prop where
  segments_eq : segments path = steps.map (·.name) ++ [field]
  route : c.Route entity steps
  declared : ∃ e, c.get? (terminal entity steps) = some e ∧ e.hasField field

theorem Leads.path_eq {entity path field : String} {steps : List Association}
    (leads : c.Leads entity path steps field) :
    path = joinDots (steps.map (·.name) ++ [field]) := by
  rw [← leads.segments_eq, joinDots_segments]

theorem Leads.dotless {entity path field : String} {steps : List Association}
    (leads : c.Leads entity path steps field) :
    ∀ name ∈ steps.map (·.name) ++ [field], '.' ∉ name.toList := by
  intro name member
  rw [← leads.segments_eq] at member
  exact dotless_of_mem_segments member

/-- Where a path leads, it passes through the ends of its first associations. -/
theorem Leads.pathOf_mem_properPrefixes {entity path field : String} {front back : List Association}
    (leads : c.Leads entity path (front ++ back) field) (nonempty : front ≠ []) :
    pathOf front ∈ properPrefixes path := by
  rw [mem_properPrefixes]
  refine ⟨joinDots (back.map (·.name) ++ [field]), ?_⟩
  rw [leads.path_eq, List.map_append, List.append_assoc,
    joinDots_append (by simpa using nonempty) (by simp)]
  rfl

theorem checkField_eq_ok_iff {path entity field : String} {done : Unit} :
    c.checkField path entity field = .ok done ↔
      ∃ e, c.get? entity = some e ∧ e.hasField field := by
  unfold checkField
  rw [bind_eq_ok_iff]
  simp only [entity_eq_ok_iff]
  apply exists_congr
  intro e
  apply and_congr_right
  intro _
  cases e.hasField field <;> simp

/-- A path resolves to itself or not at all, and it resolves exactly if it leads to a field. -/
theorem resolveProperty_eq_ok_iff {entity path resolved : String} :
    c.resolveProperty entity path = .ok resolved ↔
      resolved = path ∧ ∃ steps field, c.Leads entity path steps field := by
  unfold resolveProperty
  cases cut : splitLast? path with
  | none =>
    have single := segments_of_dotless (splitLast?_eq_none_iff.mp cut)
    simp only [bind_eq_ok_iff, checkField_eq_ok_iff]
    constructor
    · rintro ⟨_, declared, same⟩
      cases same
      exact ⟨rfl, [], path, single, .start entity, declared⟩
    · rintro ⟨rfl, steps, field, leads⟩
      have shape := leads.segments_eq
      rw [single] at shape
      cases steps with
      | nil =>
        cases shape
        exact ⟨(), leads.declared, rfl⟩
      | cons a steps => simp at shape
  | some parts =>
    obtain ⟨associations, last⟩ := parts
    obtain ⟨rfl, dotless⟩ := splitLast?_eq_some_iff.mp cut
    have parted := segments_append_dot associations last
    rw [segments_of_dotless dotless] at parted
    simp only [bind_eq_ok_iff, walk_eq_ok_iff, checkField_eq_ok_iff]
    constructor
    · rintro ⟨steps, ⟨route, names⟩, _, declared, same⟩
      cases same
      refine ⟨?_, steps, last, by rw [parted, names], route, declared⟩
      rw [names, ← parted, joinDots_segments]
    · rintro ⟨rfl, steps, field, leads⟩
      have shape := leads.segments_eq
      rw [parted] at shape
      obtain ⟨names, lastEq⟩ := List.append_inj' shape rfl
      cases lastEq
      refine ⟨steps, ⟨leads.route, names.symm⟩, (), leads.declared, ?_⟩
      rw [← leads.path_eq]

end Catalog

end FilterQuery
