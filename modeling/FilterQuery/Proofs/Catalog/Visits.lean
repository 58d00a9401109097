import FilterQuery.Proofs.Catalog.Route

/-!
The entities that paths go through. Main statement: a path to a property resolves exactly if known
entities follow one another along its segments, each the target of the first association of its name, and
the last of them has the field (`resolveProperty_isOk_iff_visits`).
-/
namespace FilterQuery

open Text

/-- The association is the first of those that the entity has under the name. -/
def Entity.FirstNamed (e : Entity) (name : String) (a : Association) : Prop :=
  a.name = name ∧ ∃ before after, e.associations = before ++ a :: after ∧
    ∀ other ∈ before, other.name ≠ name

theorem Entity.association?_eq_some_iff {e : Entity} {name : String} {a : Association} :
    e.association? name = some a ↔ e.FirstNamed name a := by
  rw [association?, List.find?_eq_some_iff_append]
  simp [FirstNamed]

namespace Catalog

variable {c : Catalog} {entity name : String} {names visited : List String}

/-- The visited entities follow one another from an entity along names: under each name the first
association of an entity in the catalog leads to the next one. -/
structure Visits (c : Catalog) (entity : String) (names visited : List String) : Prop where
  start : visited.head? = some entity
  length_eq : visited.length = names.length + 1
  follows : ∀ i name here there, names[i]? = some name → visited[i]? = some here →
    visited[i + 1]? = some there →
      ∃ e a, c.get? here = some e ∧ e.FirstNamed name a ∧ a.target = there

theorem visits_nil_iff : c.Visits entity [] visited ↔ visited = [entity] := by
  constructor
  · rintro ⟨start, size, _⟩
    obtain ⟨only, rfl⟩ := List.length_eq_one_iff.mp size
    exact congrArg (fun e => [e]) (Option.some.inj start)
  · rintro rfl
    exact ⟨rfl, rfl, by simp⟩

/-- After the first entity the others are visited from its target on. -/
theorem visits_cons_iff :
    c.Visits entity (name :: names) visited ↔
      ∃ e a later, c.get? entity = some e ∧ e.FirstNamed name a ∧ visited = entity :: later ∧
        c.Visits a.target names later := by
  constructor
  · rintro ⟨start, size, follows⟩
    obtain ⟨later, rfl⟩ := List.head?_eq_some_iff.mp start
    obtain ⟨next, more, rfl⟩ := List.exists_cons_of_length_eq_add_one (Nat.succ.inj size)
    obtain ⟨e, a, known, first, rfl⟩ := follows 0 name entity next rfl rfl rfl
    refine ⟨e, a, a.target :: more, known, first, rfl, rfl, Nat.succ.inj size, ?_⟩
    exact fun i => follows (i + 1)
  · rintro ⟨e, a, later, known, first, rfl, start, size, follows⟩
    refine ⟨rfl, congrArg Nat.succ size, fun i => ?_⟩
    cases i with
    | zero =>
      rintro _ _ there ⟨⟩ ⟨⟩ atNext
      rw [List.getElem?_cons_succ, ← List.head?_eq_getElem?, start] at atNext
      exact ⟨e, a, known, first, Option.some.inj atNext⟩
    | succ i => exact follows i

/-- The entities that are visited are those along a route. -/
theorem visits_iff_route :
    c.Visits entity names visited ↔ ∃ steps, c.Route entity steps ∧ steps.map (·.name) = names ∧
      visited = entity :: steps.map (·.target) := by
  induction names generalizing entity visited with
  | nil =>
    rw [visits_nil_iff]
    constructor
    · rintro rfl
      exact ⟨[], .start entity, rfl, rfl⟩
    · rintro ⟨steps, _, none, rfl⟩
      rw [List.map_eq_nil_iff.mp none, List.map_nil]
  | cons name names ih =>
    rw [visits_cons_iff]
    constructor
    · rintro ⟨e, a, later, known, first, rfl, visits⟩
      obtain ⟨steps, route, rfl, rfl⟩ := ih.mp visits
      obtain rfl := first.1
      exact ⟨a :: steps, .step known (Entity.association?_eq_some_iff.mpr first) route, rfl, rfl⟩
    · rintro ⟨steps, route, named, rfl⟩
      cases route with
      | start => cases named
      | @step _ e a later known found route =>
        obtain ⟨rfl, rfl⟩ := List.cons.inj named
        exact ⟨e, a, _, known, Entity.association?_eq_some_iff.mp found, rfl,
          ih.mpr ⟨later, route, rfl, rfl⟩⟩

/-- The last entity on a route is the one that the route leads to. -/
theorem getLast?_targets (entity : String) (steps : List Association) :
    (entity :: steps.map (·.target)).getLast? = some (terminal entity steps) := by
  induction steps generalizing entity with
  | nil => rfl
  | cons a later ih => rw [List.map_cons, List.getLast?_cons_cons, ih, terminal]

theorem Visits.exists_route (visits : c.Visits entity names visited) {last : String}
    (atEnd : visited.getLast? = some last) :
    ∃ steps, c.Route entity steps ∧ steps.map (·.name) = names ∧ terminal entity steps = last := by
  obtain ⟨steps, route, named, rfl⟩ := visits_iff_route.mp visits
  rw [getLast?_targets] at atEnd
  exact ⟨steps, route, named, Option.some.inj atEnd⟩

theorem Route.exists_visits {steps : List Association} (route : c.Route entity steps) :
    ∃ visited, c.Visits entity (steps.map (·.name)) visited ∧
      visited.getLast? = some (terminal entity steps) :=
  ⟨_, visits_iff_route.mpr ⟨steps, route, rfl, rfl⟩, getLast?_targets entity steps⟩

/-- The catalog knows the entities on a route if it knows the last one. -/
theorem Route.known {steps : List Association} (route : c.Route entity steps)
    (atEnd : c.contains (terminal entity steps)) :
    ∀ name ∈ entity :: steps.map (·.target), c.contains name := by
  induction route with
  | start entity =>
    intro name member
    obtain rfl := List.mem_singleton.mp member
    exact atEnd
  | @step entity e a later known _ _ ih =>
    intro name member
    rcases List.mem_cons.mp member with rfl | further
    · simp [Table.contains, known]
    · exact ih atEnd name further

/-- A path of names and a field resolves exactly if entities that the catalog knows follow one another
along the names and the last of them has the field. It resolves to itself, and does so again. -/
theorem resolveProperty_isOk_iff_visits (c : Catalog) (entity : String) {names : List String}
    {field : String} (dotless : ∀ segment ∈ names ++ [field], '.' ∉ segment.toList) :
    ((∃ resolved, c.resolveProperty entity (".".intercalate (names ++ [field])) = .ok resolved) ↔
      ∃ visited, c.Visits entity names visited ∧ (∀ name ∈ visited, c.contains name) ∧
        ∃ last e, visited.getLast? = some last ∧ c.get? last = some e ∧ field ∈ e.fields) ∧
    ∀ resolved, c.resolveProperty entity (".".intercalate (names ++ [field])) = .ok resolved →
      resolved = ".".intercalate (names ++ [field]) ∧
        c.resolveProperty entity resolved = .ok resolved := by
  have shape : segments (".".intercalate (names ++ [field])) = names ++ [field] := by
    rw [← joinDots_eq_intercalate]
    exact segments_joinDots (by simp) dotless
  refine ⟨?_, fun resolved ok => ?_⟩
  · simp only [resolveProperty_eq_ok_iff, exists_eq_left]
    constructor
    · rintro ⟨steps, last, segments_eq, route, e, known, isField⟩
      obtain ⟨rfl, same⟩ := List.append_inj' (shape.symm.trans segments_eq) rfl
      obtain rfl := List.singleton_inj.mp same
      refine ⟨entity :: steps.map (·.target), visits_iff_route.mpr ⟨steps, route, rfl, rfl⟩,
        route.known ?_, _, e, getLast?_targets entity steps, known, ?_⟩
      · simp [Table.contains, known]
      · simpa [Entity.hasField] using isField
    · rintro ⟨visited, visits, _, last, e, atEnd, known, isField⟩
      obtain ⟨steps, route, rfl, rfl⟩ := visits.exists_route atEnd
      exact ⟨steps, field, shape, route, e, known, by simpa [Entity.hasField] using isField⟩
  · obtain ⟨rfl, leads⟩ := resolveProperty_eq_ok_iff.mp ok
    exact ⟨rfl, ok⟩

/-- A catalog in which people have two bosses, one of them at a place that is not known, and in which an
association has no name. -/
def chiefs : Catalog := .ofList [
  ("hr::Person", ⟨["name"], [⟨"boss", "hr::Person", .manyToOne⟩, ⟨"boss", "Ghost", .manyToOne⟩,
    ⟨"", "hr::Person", .oneToOne⟩, ⟨"place", "Ghost", .manyToOne⟩]⟩)]

theorem resolveProperty_isOk_iff_visits_chiefs :
    (∀ segment ∈ ["boss", "", "boss"] ++ ["name"], '.' ∉ segment.toList) ∧
      chiefs.resolveProperty "hr::Person" "boss..boss.name" = .ok "boss..boss.name" ∧
      ∃ visited, chiefs.Visits "hr::Person" ["boss", "", "boss"] visited ∧
        ∀ name ∈ visited, chiefs.contains name := by
  have dotless : ∀ segment ∈ ["boss", "", "boss"] ++ ["name"], '.' ∉ segment.toList := by decide
  have path : ".".intercalate (["boss", "", "boss"] ++ ["name"]) = "boss..boss.name" := by decide
  have ok : chiefs.resolveProperty "hr::Person" "boss..boss.name" = .ok "boss..boss.name" := by
    decide +kernel
  obtain ⟨visited, visits, known, _⟩ :=
    (resolveProperty_isOk_iff_visits chiefs "hr::Person" dotless).1.mp ⟨_, path ▸ ok⟩
  exact ⟨dotless, ok, visited, visits, known⟩

end Catalog

end FilterQuery
