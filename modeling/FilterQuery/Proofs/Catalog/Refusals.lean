import FilterQuery.Proofs.Catalog.Visits
import FilterQuery.Proofs.Catalog.Walks

/-!
The faults of paths. Main statements: a path fails at the first segment that goes wrong, with what there is
to tell of the entity reached there (`resolveProperty_eq_error_iff`, `resolveAssociation_stops_iff`), and a
list of alternatives is cut where the policy says so (`ListPolicy.shows_list`).
-/
namespace FilterQuery

open Text

section Lists

theorem commaSeparated_eq_intercalate (names : List String) :
    commaSeparated names = ", ".intercalate names := by
  induction names with
  | nil => rw [commaSeparated, String.intercalate_nil]
  | cons name later ih =>
    cases later with
    | nil => rw [commaSeparated, String.intercalate_singleton]
    | cons next later =>
      rw [commaSeparated, ih, String.intercalate_cons_cons]
      exact List.cons_ne_nil next later

/-- How alternatives are listed: by the word for none of them, all of them, or the first ones up to the limit
and an ellipsis for the rest. -/
inductive ListPolicy.Shows (policy : ListPolicy) : List String → String → Prop
  | none : Shows policy [] "none"
  | all {names : List String} : names ≠ [] →
      (∀ limit, policy.limit = some limit → names.length ≤ limit) →
      Shows policy names (", ".intercalate names)
  | first {shown rest : List String} : policy.limit = some shown.length → rest ≠ [] →
      Shows policy (shown ++ rest) (", ".intercalate (shown ++ [policy.ellipsis]))

theorem ListPolicy.shows_list (policy : ListPolicy) {names : List String} (nonempty : names ≠ []) :
    policy.Shows names (policy.list names) := by
  unfold list
  cases limited : policy.limit with
  | none =>
    rw [commaSeparated_eq_intercalate]
    exact .all nonempty (by simp [limited])
  | some limit =>
    simp only [commaSeparated_eq_intercalate]
    split
    · next fits =>
      refine .all nonempty fun other same => ?_
      cases limited.symm.trans same
      exact fits
    · next more =>
      have size : (names.take limit).length = limit := List.length_take_of_le (Nat.le_of_not_le more)
      have cut : policy.limit = some (names.take limit).length := by rw [size, limited]
      have left : names.drop limit ≠ [] := by simpa using more
      have parts := ListPolicy.Shows.first cut left
      rw [List.take_append_drop] at parts
      exact parts

theorem UnknownMember.message_shows (policy : ListPolicy) (m : UnknownMember) :
    ∃ shown, policy.Shows m.available shown ∧
      m.message policy = m.summary ++ " Available " ++ m.kind.plural ++ ": " ++ shown := by
  unfold message
  split
  · next empty =>
    rw [List.isEmpty_iff.mp empty]
    exact ⟨_, .none, rfl⟩
  · next nonempty => exact ⟨_, policy.shows_list (by simpa using nonempty), rfl⟩

end Lists

/-- The names of the members of a kind in the order of declaration. -/
def Entity.members (e : Entity) : MemberKind → List String
  | .field => e.fields
  | .association => e.associations.map (·.name)

theorem Entity.association?_eq_none_iff {e : Entity} {name : String} :
    e.association? name = none ↔ name ∉ e.members .association := by
  simp [association?, members]

namespace Catalog

variable {c : Catalog} {entity path segment : String} {terminalKind : MemberKind} {fault : Fault}

/-- What is wrong with a segment of a path at the entity reached: the entity is not known, or it has no
member of the kind under that name, and then its own members are told instead. -/
inductive Refuses (c : Catalog) (path reached segment : String) (kind : MemberKind) : Fault → Prop
  | unknown : c.get? reached = none → Refuses c path reached segment kind (.unknownEntity reached)
  | missing {e : Entity} : c.get? reached = some e → segment ∉ e.members kind →
      Refuses c path reached segment kind
        (.unknownMember ⟨kind, shortName reached, segment, path, e.members kind⟩)

/-- A path goes wrong at the first segment that can: entities follow one another along those before it, and
the last of these refuses the segment. The last segment of the path names a member of the given kind, the
others name associations. -/
def Stops (c : Catalog) (entity path : String) (terminalKind : MemberKind) (fault : Fault) : Prop :=
  ∃ before segment after visited reached, segments path = before ++ segment :: after ∧
    c.Visits entity before visited ∧ visited.getLast? = some reached ∧
    c.Refuses path reached segment (if after = [] then terminalKind else .association) fault

theorem stops_iff_route :
    c.Stops entity path terminalKind fault ↔ ∃ steps segment after,
      segments path = steps.map (·.name) ++ segment :: after ∧ c.Route entity steps ∧
        c.Refuses path (terminal entity steps) segment (if after = [] then terminalKind else .association)
          fault := by
  constructor
  · rintro ⟨_, segment, after, visited, _, shape, visits, atEnd, refuses⟩
    obtain ⟨steps, route, rfl, rfl⟩ := visits.exists_route atEnd
    exact ⟨steps, segment, after, shape, route, refuses⟩
  · rintro ⟨steps, segment, after, shape, route, refuses⟩
    obtain ⟨visited, visits, atEnd⟩ := route.exists_visits
    exact ⟨_, segment, after, visited, _, shape, visits, atEnd, refuses⟩

theorem step_refuses_iff :
    c.step path entity segment = .error fault ↔ c.Refuses path entity segment .association fault := by
  rw [step_eq_error_iff]
  constructor
  · rintro (⟨unknown, rfl⟩ | ⟨e, known, missing, rfl⟩)
    · exact .unknown unknown
    · exact .missing known (Entity.association?_eq_none_iff.mp missing)
  · rintro (unknown | ⟨known, missing⟩)
    · exact .inl ⟨unknown, rfl⟩
    · exact .inr ⟨_, known, Entity.association?_eq_none_iff.mpr missing, rfl⟩

theorem checkField_refuses_iff :
    c.checkField path entity segment = .error fault ↔ c.Refuses path entity segment .field fault := by
  unfold checkField
  rw [bind_eq_error_iff, entity_eq_error_iff]
  simp only [entity_eq_ok_iff]
  constructor
  · rintro (⟨unknown, rfl⟩ | ⟨e, known, failed⟩)
    · exact .unknown unknown
    · split at failed
      · cases failed
      · next missing =>
        cases failed
        exact .missing known (by simpa [Entity.hasField, Entity.members] using missing)
  · rintro (unknown | @⟨e, known, missing⟩)
    · exact .inl ⟨unknown, rfl⟩
    · have notField : ¬e.hasField segment := by simpa [Entity.hasField, Entity.members] using missing
      exact .inr ⟨e, known, if_neg notField⟩

theorem resolveAssociation_stops_iff :
    c.resolveAssociation entity path = .error fault ↔ c.Stops entity path .association fault := by
  rw [resolveAssociation_eq_error_iff, chain, walk_eq_error_iff, stops_iff_route]
  simp only [step_refuses_iff, ite_self]

/-- A path to a property fails on the way to its last segment, or at the check of that. -/
theorem resolveProperty_eq_error_iff :
    c.resolveProperty entity path = .error fault ↔ c.Stops entity path .field fault := by
  rw [stops_iff_route]
  unfold resolveProperty
  cases cut : splitLast? path with
  | none =>
    have single := segments_of_dotless (splitLast?_eq_none_iff.mp cut)
    simp only [bind_eq_error_iff, checkField_refuses_iff, reduceCtorEq, and_false, exists_false, or_false]
    constructor
    · intro refuses
      exact ⟨[], path, [], single, .start entity, refuses⟩
    · rintro ⟨steps, segment, after, shape, _, refuses⟩
      rw [single] at shape
      cases steps with
      | nil =>
        cases shape
        exact refuses
      | cons a steps => simp at shape
  | some parts =>
    obtain ⟨associations, last⟩ := parts
    obtain ⟨rfl, dotless⟩ := splitLast?_eq_some_iff.mp cut
    have parted := segments_append_dot associations last
    rw [segments_of_dotless dotless] at parted
    simp only [bind_eq_error_iff, walk_eq_error_iff, walk_eq_ok_iff, step_refuses_iff,
      checkField_refuses_iff, reduceCtorEq, and_false, exists_false, or_false]
    constructor
    · rintro (⟨steps, segment, after, names, route, refuses⟩ | ⟨steps, ⟨route, names⟩, refuses⟩)
      · refine ⟨steps, segment, after ++ [last], by simp [parted, names], route, ?_⟩
        rw [if_neg (by simp)]
        exact refuses
      · exact ⟨steps, last, [], by rw [parted, names], route, refuses⟩
    · rintro ⟨steps, segment, after, shape, route, refuses⟩
      rw [parted] at shape
      rcases List.eq_nil_or_concat after with rfl | ⟨more, end', rfl⟩
      · obtain ⟨names, same⟩ := List.append_inj' shape rfl
        obtain rfl := List.singleton_inj.mp same
        exact .inr ⟨steps, ⟨route, names.symm⟩, refuses⟩
      · rw [List.concat_eq_append, ← List.cons_append, ← List.append_assoc] at shape
        rw [if_neg (by simp)] at refuses
        exact .inl ⟨steps, segment, more, (List.append_inj' shape rfl).1, route, refuses⟩

/-- A path to a property fails at the first segment that goes wrong: with the full name of the entity that
the segments before lead to, if the catalog does not know it, and else with the short name of that entity,
the segment, the path, and the members that the entity has instead. A path of associations does so too, its
last segment being no other than those before. A message lists the members up to the limit. -/
theorem resolve_fails_first (c : Catalog) (policy : ListPolicy) (entity path : String) :
    (∀ fault, c.resolveProperty entity path = .error fault ↔ c.Stops entity path .field fault) ∧
    (∀ fault, c.resolveAssociation entity path = .error fault ↔ c.Stops entity path .association fault) ∧
    ∀ m, ∃ shown, policy.Shows m.available shown ∧ (Fault.unknownMember m).message policy =
      m.summary ++ " Available " ++ m.kind.plural ++ ": " ++ shown :=
  ⟨fun _ => resolveProperty_eq_error_iff, fun _ => resolveAssociation_stops_iff,
    fun m => m.message_shows policy⟩

end Catalog

end FilterQuery
