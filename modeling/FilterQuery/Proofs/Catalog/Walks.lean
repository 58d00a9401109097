import FilterQuery.Proofs.Catalog.Route

/-!
The ways in which paths through a catalog are followed: association by association to a destination
(`foldlM_follow`), along the chain of all associations, and past the associations to a property. Main
statement: the three succeed and fail together (`walks_agree`).
-/
namespace FilterQuery

open Text

namespace Catalog

variable {c : Catalog} {entity path : String}

/-- The trail with some more associations on it. -/
def Trail.after (t : Trail) (steps : List Association) : Trail where
  names := t.names ++ steps.map (·.name)
  entity := terminal t.entity steps
  property := (steps.getLast?.map (·.name)).getD t.property

theorem Trail.after_cons (t : Trail) (a : Association) (later : List Association) :
    t.after (a :: later) = Trail.after ⟨t.names ++ [a.name], a.target, a.name⟩ later := by
  cases later <;> simp [Trail.after, terminal, List.getLast?_cons]

/-- Following names goes along the steps of the walk by these names. -/
theorem foldlM_follow (t : Trail) (names : List String) :
    names.foldlM (c.follow path) t = (c.walk path t.entity names).map t.after := by
  induction names generalizing t with
  | nil =>
    obtain ⟨names, entity, property⟩ := t
    simp [walk, Except.map, Trail.after, terminal, pure, Except.pure]
  | cons segment names ih =>
    rw [List.foldlM_cons, follow, walk]
    cases c.step path t.entity segment with
    | error fault => rfl
    | ok a =>
      have later := ih ⟨t.names ++ [a.name], a.target, a.name⟩
      show List.foldlM _ _ names = Except.map _ (c.walk path a.target names >>= _)
      rw [later]
      cases c.walk path a.target names with
      | error fault => rfl
      | ok steps => exact congrArg Except.ok (t.after_cons a steps).symm

theorem terminal_of_getLast? {steps : List Association} {last : Association}
    (atEnd : steps.getLast? = some last) : terminal entity steps = last.target := by
  obtain ⟨before, rfl⟩ := List.getLast?_eq_some_iff.mp atEnd
  rw [terminal_append]
  rfl

/-- A chain has as many associations as the path has segments, of which there is at least one. -/
theorem getLast?_of_chain {steps : List Association} (ok : c.chain entity path = .ok steps) :
    ∃ last, steps.getLast? = some last := by
  have names := (walk_eq_ok_iff.mp ok).2
  have nonempty : steps ≠ [] := by
    rintro rfl
    exact segments_ne_nil path names.symm
  exact ⟨_, List.getLast?_eq_some_getLast nonempty⟩

/-- The destination of a path, in the words of its chain. -/
theorem resolveAssociation_eq (c : Catalog) (entity path : String) :
    c.resolveAssociation entity path = (c.chain entity path).map fun steps =>
      ⟨pathOf steps, terminal entity steps, (steps.getLast?.map (·.name)).getD ""⟩ := by
  rw [resolveAssociation, foldlM_follow, chain]
  cases c.walk path entity (segments path) with
  | error fault => rfl
  | ok steps => rfl

theorem resolveAssociation_eq_ok_iff {d : Destination} :
    c.resolveAssociation entity path = .ok d ↔ ∃ steps last, c.chain entity path = .ok steps ∧
      steps.getLast? = some last ∧ d = ⟨pathOf steps, last.target, last.name⟩ := by
  rw [resolveAssociation_eq]
  cases walked : c.chain entity path with
  | error fault => simp [Except.map]
  | ok steps =>
    obtain ⟨last, atEnd⟩ := getLast?_of_chain walked
    simp [Except.map, atEnd, terminal_of_getLast? atEnd, eq_comm]

theorem resolveAssociation_eq_error_iff {fault : Fault} :
    c.resolveAssociation entity path = .error fault ↔ c.chain entity path = .error fault := by
  rw [resolveAssociation_eq]
  cases c.chain entity path <;> simp [Except.map]

section Faults

theorem entity_eq_error_iff {name : String} {fault : Fault} :
    c.entity name = .error fault ↔ c.get? name = none ∧ fault = .unknownEntity name := by
  unfold Catalog.entity
  cases c.get? name <;> simp [eq_comm]

theorem step_eq_error_iff {segment : String} {fault : Fault} :
    c.step path entity segment = .error fault ↔
      (c.get? entity = none ∧ fault = .unknownEntity entity) ∨
        ∃ e, c.get? entity = some e ∧ e.association? segment = none ∧
          fault = .unknownMember ⟨.association, shortName entity, segment, path, e.associationNames⟩ := by
  unfold step
  rw [bind_eq_error_iff, entity_eq_error_iff]
  simp only [entity_eq_ok_iff]
  apply or_congr_right
  apply exists_congr
  intro e
  apply and_congr_right
  intro _
  cases e.association? segment <;> simp [eq_comm]

/-- A walk fails with the fault of the step behind the longest route along its names. -/
theorem walk_eq_error_iff {names : List String} {fault : Fault} :
    c.walk path entity names = .error fault ↔
      ∃ steps segment later, names = steps.map (·.name) ++ segment :: later ∧ c.Route entity steps ∧
        c.step path (terminal entity steps) segment = .error fault := by
  induction names generalizing entity with
  | nil =>
    constructor
    · intro failed
      cases failed
    · rintro ⟨steps, segment, later, shape, _⟩
      simp at shape
  | cons first names ih =>
    rw [walk, bind_eq_error_iff]
    constructor
    · rintro (failed | ⟨a, ok, rest⟩)
      · exact ⟨[], first, names, rfl, .start entity, failed⟩
      · obtain ⟨e, known, found⟩ := step_eq_ok_iff.mp ok
        have name := association?_name found
        simp only [bind_eq_error_iff, reduceCtorEq, and_false, exists_false, or_false] at rest
        obtain ⟨steps, segment, later, rfl, route, failed⟩ := ih.mp rest
        exact ⟨a :: steps, segment, later, by simp [name], .step known (name ▸ found) route, failed⟩
    · rintro ⟨steps, segment, later, shape, route, failed⟩
      cases route with
      | start =>
        obtain ⟨rfl, rfl⟩ := List.cons.inj shape
        exact .inl failed
      | @step _ e a steps known found route =>
        obtain ⟨rfl, rest⟩ := List.cons.inj shape
        have walked := ih.mpr ⟨steps, segment, later, rest, route, failed⟩
        exact .inr ⟨a, step_eq_ok_iff.mpr ⟨e, known, found⟩, bind_eq_error_iff.mpr (.inl walked)⟩

/-- Of another path that it is made for, a walk tells the same. -/
theorem walk_eq_error_cases {names : List String} {fault : Fault}
    (failed : c.walk path entity names = .error fault) (other : String) :
    (∃ name, fault = .unknownEntity name ∧ c.walk other entity names = .error fault) ∨
      ∃ m, fault = .unknownMember m ∧
        c.walk other entity names = .error (.unknownMember { m with path := other }) := by
  obtain ⟨steps, segment, later, shape, route, stopped⟩ := walk_eq_error_iff.mp failed
  rcases step_eq_error_iff.mp stopped with ⟨unknown, rfl⟩ | ⟨e, known, missing, rfl⟩
  · exact .inl ⟨_, rfl, walk_eq_error_iff.mpr
      ⟨steps, segment, later, shape, route, step_eq_error_iff.mpr (.inl ⟨unknown, rfl⟩)⟩⟩
  · exact .inr ⟨_, rfl, walk_eq_error_iff.mpr
      ⟨steps, segment, later, shape, route, step_eq_error_iff.mpr (.inr ⟨e, known, missing, rfl⟩)⟩⟩

end Faults

section Property

variable {field : String}

/-- A path to a property is the walk to the entity that declares it, and the check there. -/
theorem resolveProperty_append_dot (dotless : '.' ∉ field.toList) (c : Catalog) (entity path : String) :
    c.resolveProperty entity (path ++ "." ++ field) = (do
      let steps ← c.walk (path ++ "." ++ field) entity (segments path)
      c.checkField (path ++ "." ++ field) (terminal entity steps) field
      .ok (joinDots (steps.map (·.name) ++ [field]))) := by
  rw [resolveProperty, splitLast?_eq_some_iff.mpr ⟨rfl, dotless⟩]

/-- A path to a property resolves exactly if the chain before its last segment ends at an entity that
declares this as a field. -/
theorem resolveProperty_isOk_iff (dotless : '.' ∉ field.toList) :
    (c.resolveProperty entity (path ++ "." ++ field)).isOk ↔ ∃ steps last e,
      c.chain entity path = .ok steps ∧ steps.getLast? = some last ∧
        c.get? last.target = some e ∧ e.hasField field := by
  have known : (c.resolveProperty entity (path ++ "." ++ field)).isOk ↔
      ∃ resolved, c.resolveProperty entity (path ++ "." ++ field) = .ok resolved := by
    cases c.resolveProperty entity (path ++ "." ++ field) <;> simp
  rw [known, resolveProperty_append_dot dotless]
  simp only [bind_eq_ok_iff, checkField_eq_ok_iff, chain, walk_eq_ok_iff]
  constructor
  · rintro ⟨_, steps, walked, _, ⟨e, declared, isField⟩, _⟩
    obtain ⟨last, atEnd⟩ := getLast?_of_chain (walk_eq_ok_iff.mpr walked : c.chain entity path = .ok steps)
    exact ⟨steps, last, e, walked, atEnd, terminal_of_getLast? atEnd ▸ declared, isField⟩
  · rintro ⟨steps, last, e, walked, atEnd, declared, isField⟩
    exact ⟨_, steps, walked, (), ⟨e, (terminal_of_getLast? atEnd).symm ▸ declared, isField⟩, rfl⟩

theorem resolveProperty_of_chain_error (dotless : '.' ∉ field.toList) {fault : Fault}
    (failed : c.chain entity path = .error fault) :
    (∃ name, fault = .unknownEntity name ∧
        c.resolveProperty entity (path ++ "." ++ field) = .error fault) ∨
      ∃ m, fault = .unknownMember m ∧ c.resolveProperty entity (path ++ "." ++ field) =
        .error (.unknownMember { m with path := path ++ "." ++ field }) := by
  rw [resolveProperty_append_dot dotless]
  rcases walk_eq_error_cases failed (path ++ "." ++ field) with ⟨name, rfl, walked⟩ | ⟨m, rfl, walked⟩
  · exact .inl ⟨name, rfl, bind_eq_error_iff.mpr (.inl walked)⟩
  · exact .inr ⟨m, rfl, bind_eq_error_iff.mpr (.inl walked)⟩

end Property

/-- Where a path of associations leads is told by its chain, and both fail alike. Past this path a field is
found exactly if the chain ends at an entity with this field; and a fault of the chain is one of the longer
path, at the same segment. -/
theorem walks_agree (c : Catalog) (entity path : String) :
    (∀ d, c.resolveAssociation entity path = .ok d ↔ ∃ steps last, c.chain entity path = .ok steps ∧
      steps.getLast? = some last ∧ d = ⟨joinDots (steps.map (·.name)), last.target, last.name⟩) ∧
    (c.resolveAssociation entity path).isOk = (c.chain entity path).isOk ∧
    (∀ fault, c.resolveAssociation entity path = .error fault ↔ c.chain entity path = .error fault) ∧
    ∀ field, '.' ∉ field.toList →
      ((c.resolveProperty entity (path ++ "." ++ field)).isOk ↔ ∃ steps last e,
        c.chain entity path = .ok steps ∧ steps.getLast? = some last ∧
          c.get? last.target = some e ∧ e.hasField field) ∧
      ∀ fault, c.chain entity path = .error fault →
        (∃ name, fault = .unknownEntity name ∧
          c.resolveProperty entity (path ++ "." ++ field) = .error fault) ∨
        ∃ m, fault = .unknownMember m ∧ c.resolveProperty entity (path ++ "." ++ field) =
          .error (.unknownMember { m with path := path ++ "." ++ field }) := by
  refine ⟨fun d => resolveAssociation_eq_ok_iff, ?_, fun fault => resolveAssociation_eq_error_iff, ?_⟩
  · rw [Bool.eq_iff_iff, isOk_iff, isOk_iff]
    exact forall_congr' fun fault => not_congr resolveAssociation_eq_error_iff
  · intro field dotless
    exact ⟨resolveProperty_isOk_iff dotless, fun fault => resolveProperty_of_chain_error dotless⟩

/-- A catalog of people who are led by other people. -/
def staff : Catalog := .ofList [("hr::Person", ⟨["name"], [⟨"boss", "hr::Person", .manyToOne⟩]⟩)]

/-- The boss of a boss has a name. An empty segment between the two is told, as it is no association. -/
theorem walks_agree_staff :
    '.' ∉ "name".toList ∧ (staff.resolveProperty "hr::Person" ("boss.boss" ++ "." ++ "name")).isOk ∧
      ∃ m, m.segment = "" ∧ staff.resolveAssociation "hr::Person" "boss..boss" = .error (.unknownMember m) ∧
        staff.resolveProperty "hr::Person" ("boss..boss" ++ "." ++ "name") =
          .error (.unknownMember { m with path := "boss..boss" ++ "." ++ "name" }) := by
  have dotless : '.' ∉ "name".toList := by decide
  obtain ⟨_, _, _, whole⟩ := walks_agree staff "hr::Person" "boss.boss"
  obtain ⟨_, _, alike, gap⟩ := walks_agree staff "hr::Person" "boss..boss"
  have failed : staff.chain "hr::Person" "boss..boss" =
      .error (.unknownMember ⟨.association, "Person", "", "boss..boss", ["boss"]⟩) := by decide +kernel
  refine ⟨dotless, (whole "name" dotless).1.mpr ⟨[⟨"boss", "hr::Person", .manyToOne⟩,
    ⟨"boss", "hr::Person", .manyToOne⟩], ⟨"boss", "hr::Person", .manyToOne⟩, _, ?_, rfl, rfl, ?_⟩,
    _, rfl, (alike _).mpr failed, ?_⟩
  · decide +kernel
  · decide +kernel
  · rcases (gap "name" dotless).2 _ failed with ⟨name, other, _⟩ | ⟨m, same, told⟩
    · cases other
    · cases same
      exact told

end Catalog

end FilterQuery
