import FilterQuery.Proofs.Sql.Joins

/-!
The faults of filters. Main statements: a condition has a fault exactly if its path does not resolve or
crosses a many-to-many association (`Progressed.addCondition_eq_error_iff`), whatever has been joined
before, and so the fault of a filter is that of its first faulty condition (`compile_eq_error_iff`).
-/
namespace FilterQuery

open Text Catalog Sql

namespace Catalog

/-- A path leads to a field, and the first many-to-many association on its way has the name and starts at
the entity. -/
def Crosses (c : Catalog) (root path entity name : String) : Prop :=
  ∃ before a after field, c.Leads root path (before ++ a :: after) field ∧
    (∀ b ∈ before, b.kind ≠ .manyToMany) ∧ a.kind = .manyToMany ∧
    entity = terminal root before ∧ name = a.name

theorem Leads.isOk {c : Catalog} {root path field : String} {steps : List Association}
    (leads : c.Leads root path steps field) : (c.resolveProperty root path).isOk := by
  rw [resolveProperty_eq_ok_iff.mpr ⟨rfl, steps, field, leads⟩]
  rfl

/-- The associations of a path that resolves can be walked along. -/
theorem chain_isOk {c : Catalog} {root path resolved associations name : String}
    (ok : c.resolveProperty root path = .ok resolved)
    (cut : splitLast? resolved = some (associations, name)) : (c.chain root associations).isOk := by
  obtain ⟨rfl, steps, field, leads⟩ := resolveProperty_eq_ok_iff.mp ok
  obtain ⟨shape, dotless⟩ := splitLast?_eq_some_iff.mp cut
  have parted := leads.segments_eq
  rw [shape, segments_append_dot, segments_of_dotless dotless] at parted
  have names := (List.append_inj' parted rfl).1
  have walked : c.chain root associations = .ok steps := walk_eq_ok_iff.mpr ⟨leads.route, names.symm⟩
  rw [walked]
  rfl

end Catalog

namespace Sql

def ToOne (joined : List Hop) : Prop := ∀ hop ∈ joined, hop.association.kind ≠ .manyToMany

variable {joined later : List Hop} {hop : Hop} {fault : Fault}

theorem ToOne.addHop (toOne : ToOne joined) (ok : addHop joined hop = .ok later) : ToOne later := by
  rcases addHop_cases ok with ⟨_, rfl⟩ | ⟨_, kind, rfl⟩
  · exact toOne
  · intro other member
    rcases List.mem_append.mp member with old | new
    · exact toOne other old
    · obtain rfl := List.mem_singleton.mp new
      exact kind

theorem ToOne.addHops {hops : List Hop} (toOne : ToOne joined)
    (ok : hops.foldlM Sql.addHop joined = .ok later) : ToOne later :=
  foldlM_keeps ToOne ToOne.addHop toOne ok

/-- Two hops that are joined under one path are the same association. -/
def Agree (hops others : List Hop) : Prop :=
  ∀ hop ∈ hops, ∀ other ∈ others, hop.path = other.path → hop.association = other.association

/-- A many-to-many hop is refused even if its path is joined, as it is not joined with this path. -/
theorem addHop_eq_error_iff (toOne : ToOne joined) (agree : Agree joined [hop]) :
    addHop joined hop = .error fault ↔ hop.association.kind = .manyToMany ∧
      fault = .manyToMany (shortName hop.source) hop.association.name := by
  unfold addHop
  by_cases old : joined.any (·.path = hop.path) = true
  · rw [if_pos old]
    obtain ⟨other, member, same⟩ := List.any_eq_true.mp old
    have association := agree other member hop (by simp) (by simpa using same)
    have kind := toOne other member
    rw [association] at kind
    simp [kind]
  · rw [if_neg old]
    by_cases many : hop.association.kind = .manyToMany
    · simp [many, eq_comm]
    · simp [many]

theorem Agree.next {hops : List Hop} (agree : Agree (joined ++ hop :: hops) (hop :: hops)) :
    Agree joined [hop] := by
  intro one member other same
  obtain rfl := List.mem_singleton.mp same
  exact agree one (List.mem_append_left _ member) _ List.mem_cons_self

theorem Agree.after {hops : List Hop} (agree : Agree (joined ++ hop :: hops) (hop :: hops))
    (ok : addHop joined hop = .ok later) : Agree (later ++ hops) hops := by
  intro one member other inHops
  refine agree one ?_ other (List.mem_cons_of_mem _ inHops)
  rcases addHop_cases ok with ⟨_, rfl⟩ | ⟨_, _, rfl⟩
  · rcases List.mem_append.mp member with old | new
    · exact List.mem_append_left _ old
    · exact List.mem_append_right _ (List.mem_cons_of_mem _ new)
  · simpa using member

theorem hopsFrom_append (before source sourceName : String) (front back : List Association) :
    ∃ path name, hopsFrom before source sourceName (front ++ back) =
      hopsFrom before source sourceName front ++ hopsFrom path (terminal source front) name back := by
  induction front generalizing before source sourceName with
  | nil => exact ⟨before, sourceName, rfl⟩
  | cons a front ih =>
    obtain ⟨path, name, later⟩ := ih (extendPath before a.name) a.target (undotted (extendPath before a.name))
    exact ⟨path, name, congrArg (List.cons _) later⟩

theorem map_association_hopsFrom (before source sourceName : String) (steps : List Association) :
    (hopsFrom before source sourceName steps).map Hop.association = steps := by
  induction steps generalizing before source sourceName with
  | nil => rfl
  | cons a steps ih => exact congrArg (List.cons a) (ih _ _ _)

/-- Along associations the first one that is many-to-many is refused. -/
theorem hopsFrom_eq_error_iff {before source sourceName : String} {steps : List Association}
    (toOne : ToOne joined)
    (agree : Agree (joined ++ hopsFrom before source sourceName steps)
      (hopsFrom before source sourceName steps)) :
    (hopsFrom before source sourceName steps).foldlM addHop joined = .error fault ↔
      ∃ front a back, steps = front ++ a :: back ∧ (∀ b ∈ front, b.kind ≠ .manyToMany) ∧
        a.kind = .manyToMany ∧ fault = .manyToMany (shortName (terminal source front)) a.name := by
  rw [foldlM_fails_iff (f := addHop) (fun joined hops => ToOne joined ∧ Agree (joined ++ hops) hops)
    (fun hop f => hop.association.kind = .manyToMany ∧
      f = .manyToMany (shortName hop.source) hop.association.name)
    (fun ⟨toOne, agree⟩ => addHop_eq_error_iff toOne agree.next)
    (fun ⟨toOne, agree⟩ ok => ⟨toOne.addHop ok, agree.after ok⟩) ⟨toOne, agree⟩]
  constructor
  · rintro ⟨first, hop, rest, shape, others, many, rfl⟩
    have parts := congrArg (List.map Hop.association) shape
    rw [map_association_hopsFrom, List.map_append, List.map_cons] at parts
    obtain ⟨path, name, again⟩ := hopsFrom_append before source sourceName (first.map Hop.association)
      (hop.association :: rest.map Hop.association)
    rw [← parts, shape] at again
    have lengths := congrArg List.length
      (map_association_hopsFrom before source sourceName (first.map Hop.association))
    rw [List.length_map, List.length_map] at lengths
    obtain ⟨_, behind⟩ := List.append_inj again lengths.symm
    obtain ⟨here, _⟩ := List.cons.inj behind
    refine ⟨_, _, _, parts, ?_, many, by rw [congrArg Hop.source here]⟩
    intro a member kind
    obtain ⟨other, inFirst, rfl⟩ := List.mem_map.mp member
    exact others other inFirst _ ⟨kind, rfl⟩
  · rintro ⟨front, a, back, rfl, others, many, rfl⟩
    obtain ⟨path, name, shape⟩ := hopsFrom_append before source sourceName front (a :: back)
    refine ⟨_, _, _, shape, ?_, many, rfl⟩
    intro other member e refused
    have inFront := List.mem_map_of_mem (f := Hop.association) member
    rw [map_association_hopsFrom] at inFront
    exact others _ inFront refused.1

end Sql

namespace Compiler

variable {c : Compiler} {root : String} {seen : List Condition} {condition : Condition} {p : Progress}
  {fault : Fault}

/-- No path of the conditions starts with a nameless association and another one, unless it does not
resolve. -/
def Named (c : Compiler) (root : String) (conditions : List Condition) : Prop :=
  ∀ condition ∈ conditions, (c.catalog.resolveProperty root (c.pathOf condition)).isOk →
    ¬NamelessStart (c.pathOf condition)

instance (c : Compiler) (root : String) (conditions : List Condition) :
    Decidable (c.Named root conditions) :=
  inferInstanceAs (Decidable (∀ _ ∈ _, _))

/-- The fault of a condition by itself: its path does not resolve, or crosses a many-to-many association. -/
inductive Refused (c : Compiler) (root : String) (condition : Condition) : Fault → Prop
  | unresolved {fault : Fault} : c.catalog.resolveProperty root (c.pathOf condition) = .error fault →
      Refused c root condition fault
  | crosses {entity name : String} : c.catalog.Crosses root (c.pathOf condition) entity name →
      Refused c root condition (.manyToMany (shortName entity) name)

/-- Hops on the ways of conditions are the same association if they are joined under one path. -/
theorem association_eq {path other field last : String} {steps ways : List Association} {one two : Hop}
    (leads : c.catalog.Leads root path steps field) (named : ¬NamelessStart path)
    (leadsOther : c.catalog.Leads root other ways last) (namedOther : ¬NamelessStart other)
    (member : one ∈ c.hopsAlong root steps) (memberOther : two ∈ c.hopsAlong root ways)
    (same : one.path = two.path) : one.association = two.association := by
  obtain ⟨before, route, names, _⟩ := hop_of_leads leads named member
  obtain ⟨front, routeOther, namesOther, _⟩ := hop_of_leads leadsOther namedOther memberOther
  rw [same, namesOther] at names
  have equal := route.eq_of_names routeOther names.symm
  exact (List.append_inj' equal rfl).2 |> List.singleton_inj.mp

theorem Progressed.agree (progressed : c.Progressed root seen p) (named : c.Named root (seen ++ [condition]))
    {steps : List Association} {field : String}
    (leads : c.catalog.Leads root (c.pathOf condition) steps field) :
    Agree (p.joined ++ c.hopsAlong root steps) (c.hopsAlong root steps) := by
  have here := named condition (by simp) leads.isOk
  intro one member two inWay same
  rcases List.mem_append.mp member with old | new
  · obtain ⟨other, inSeen, ways, last, leadsOther, inOther⟩ := progressed.along one old
    have there := named other (List.mem_append_left _ inSeen) leadsOther.isOk
    exact association_eq leadsOther there leads here inOther inWay same
  · exact association_eq leads here leads here new inWay same

/-- What has been compiled before a condition does not matter for its fault. -/
theorem Progressed.addCondition_eq_error_iff (progressed : c.Progressed root seen p)
    (toOne : ToOne p.joined) (named : c.Named root (seen ++ [condition])) :
    c.addCondition root p condition = .error fault ↔ c.Refused root condition fault := by
  unfold addCondition
  rw [bind_eq_error_iff]
  constructor
  · rintro (unresolved | ⟨path, ok, failed⟩)
    · exact .unresolved unresolved
    · obtain ⟨rfl, steps, field, leads⟩ := resolveProperty_eq_ok_iff.mp ok
      rw [column_of_leads leads] at failed
      simp only [bind_eq_error_iff, reduceCtorEq, and_false, exists_false, or_false] at failed
      obtain ⟨front, a, back, rfl, others, many, rfl⟩ :=
        (hopsFrom_eq_error_iff toOne (progressed.agree named leads)).mp failed
      exact .crosses ⟨front, a, back, field, leads, others, many, rfl, rfl⟩
  · intro refused
    cases refused with
    | unresolved failed => exact .inl failed
    | crosses crossing =>
      obtain ⟨front, a, back, field, leads, others, many, rfl, rfl⟩ := crossing
      have resolves := resolveProperty_eq_ok_iff.mpr ⟨rfl, _, _, leads⟩
      refine .inr ⟨_, resolves, ?_⟩
      have failed := (hopsFrom_eq_error_iff toOne (progressed.agree named leads)).mpr
        ⟨front, a, back, rfl, others, many, rfl⟩
      have column := column_of_leads leads p.joined
      rw [hopsAlong, failed] at column
      change (c.column root p.joined (c.pathOf condition) >>= _) = _
      rw [column]
      rfl

theorem ToOne.addCondition {next : Progress} (toOne : ToOne p.joined)
    (ok : c.addCondition root p condition = .ok next) : ToOne next.joined := by
  simp only [Compiler.addCondition, bind_eq_ok_iff] at ok
  obtain ⟨path, resolves, ⟨later, column⟩, columnOk, same⟩ := ok
  obtain ⟨rfl, steps, field, leads⟩ := resolveProperty_eq_ok_iff.mp resolves
  cases same
  exact toOne.addHops ((column_eq_ok_iff leads).mp columnOk).1

theorem toOne_of_run {conditions : List Condition} {done : Progress}
    (ran : c.run root conditions = .ok done) : ToOne done.joined :=
  foldlM_keeps (fun p => ToOne p.joined) ToOne.addCondition (by simp [ToOne]) ran

/-- Conditions fail with the fault of the first that has one. -/
theorem Progressed.foldlM_eq_error_iff {conditions : List Condition} (progressed : c.Progressed root seen p)
    (toOne : ToOne p.joined) (named : c.Named root (seen ++ conditions)) :
    conditions.foldlM (c.addCondition root) p = .error fault ↔
      ∃ before condition after, conditions = before ++ condition :: after ∧
        (∀ other ∈ before, ∀ f, ¬c.Refused root other f) ∧ c.Refused root condition fault := by
  refine foldlM_fails_iff (fun p conditions => ∃ seen, c.Progressed root seen p ∧ ToOne p.joined ∧
    c.Named root (seen ++ conditions)) (c.Refused root) ?_ ?_ ⟨seen, progressed, toOne, named⟩
  · rintro p condition later f ⟨seen, progressed, toOne, named⟩
    refine progressed.addCondition_eq_error_iff toOne fun other member => named other ?_
    rw [List.append_cons]
    exact List.mem_append_left _ member
  · rintro p condition later next ⟨seen, progressed, toOne, named⟩ ok
    rw [List.append_cons] at named
    exact ⟨_, progressed.step ok, ToOne.addCondition toOne ok, named⟩

theorem compile_eq_error_iff {filter : Filter} (named : c.Named root filter.conditions) :
    c.compile root filter = .error fault ↔
      ∃ before condition after, filter.conditions = before ++ condition :: after ∧
        (∀ other ∈ before, ∀ f, ¬c.Refused root other f) ∧ c.Refused root condition fault := by
  have start : ToOne ([] : List Hop) := by simp [ToOne]
  rw [← Progressed.start.foldlM_eq_error_iff start (by simpa using named)]
  unfold compile
  simp only [bind_eq_error_iff, reduceCtorEq, and_false, exists_false, or_false]

theorem compile_single_eq_error_iff (named : c.Named root [condition]) :
    c.compile root (.single condition) = .error fault ↔ c.Refused root condition fault := by
  have whole : ∀ before other after, [condition] = before ++ other :: after ↔
      before = [] ∧ other = condition ∧ after = [] := by
    intro before other after
    cases before <;> simp [eq_comm]
  rw [compile_eq_error_iff named]
  simp [Filter.single, whole]

theorem compile_single_of_mem {filter : Filter} (named : c.Named root filter.conditions)
    (member : condition ∈ filter.conditions) :
    c.compile root (.single condition) = .error fault ↔ c.Refused root condition fault := by
  refine compile_single_eq_error_iff ?_
  intro other same
  exact named other (List.mem_singleton.mp same ▸ member)

/-- A filter fails like the first condition that fails by itself. -/
theorem compile_eq_error_iff_single {filter : Filter} (named : c.Named root filter.conditions) :
    c.compile root filter = .error fault ↔
      ∃ before condition after, filter.conditions = before ++ condition :: after ∧
        (∀ other ∈ before, (c.compile root (.single other)).isOk) ∧
        c.compile root (.single condition) = .error fault := by
  rw [compile_eq_error_iff named]
  refine exists_congr fun before => exists_congr fun condition => exists_congr fun after => ?_
  apply and_congr_right
  intro shape
  have alone : ∀ other ∈ before ++ condition :: after, ∀ fault,
      c.compile root (.single other) = .error fault ↔ c.Refused root other fault := by
    intro other member fault
    rw [← shape] at member
    exact compile_single_of_mem named member
  refine and_congr ?_ (alone condition (by simp) fault).symm
  apply forall₂_congr
  intro other member
  simp [isOk_iff, alone other (List.mem_append_left _ member)]

theorem compile_isOk_iff {filter : Filter} (named : c.Named root filter.conditions) :
    (c.compile root filter).isOk ↔
      ∀ condition ∈ filter.conditions, (c.compile root (.single condition)).isOk := by
  constructor
  · intro ok condition member
    by_contra failed
    cases first : filter.conditions.find? fun other => !(c.compile root (.single other)).isOk with
    | none => exact List.find?_eq_none.mp first condition member (by simpa using failed)
    | some faulty =>
      obtain ⟨notOk, before, after, shape, others⟩ := List.find?_eq_some_iff_append.mp first
      cases result : c.compile root (.single faulty) with
      | ok compiled => simp [result, Except.isOk, Except.toBool] at notOk
      | error fault =>
        have whole := (compile_eq_error_iff_single named).mpr
          ⟨before, faulty, after, shape, by simpa using others, result⟩
        exact isOk_iff.mp ok fault whole
  · intro each
    rw [isOk_iff]
    intro fault failed
    obtain ⟨before, condition, after, shape, _, refused⟩ := (compile_eq_error_iff_single named).mp failed
    exact isOk_iff.mp (each condition (by simp [shape])) fault refused

/-- A filter compiles exactly if each of its conditions does so by itself, and fails with the fault of the
first condition that does not. This is the fault of its path if that does not resolve, and else it names
the first many-to-many association on the way. Nothing else goes wrong with a path that resolves. -/
theorem compile_fails_first {filter : Filter} (named : c.Named root filter.conditions) :
    ((c.compile root filter).isOk ↔
      ∀ condition ∈ filter.conditions, (c.compile root (.single condition)).isOk) ∧
    (∀ fault, c.compile root filter = .error fault ↔
      ∃ before condition after, filter.conditions = before ++ condition :: after ∧
        (∀ other ∈ before, (c.compile root (.single other)).isOk) ∧
        c.compile root (.single condition) = .error fault) ∧
    (∀ condition ∈ filter.conditions, ∀ fault, c.compile root (.single condition) = .error fault ↔
      c.catalog.resolveProperty root (c.pathOf condition) = .error fault ∨
        ∃ entity name, c.catalog.Crosses root (c.pathOf condition) entity name ∧
          fault = .manyToMany (shortName entity) name) ∧
    ∀ path resolved associations name, c.catalog.resolveProperty root path = .ok resolved →
      splitLast? resolved = some (associations, name) → (c.catalog.chain root associations).isOk := by
  refine ⟨compile_isOk_iff named, fun fault => compile_eq_error_iff_single named, ?_,
    fun path resolved associations name => chain_isOk⟩
  intro condition member fault
  rw [compile_single_of_mem named member]
  constructor
  · intro refused
    cases refused with
    | unresolved failed => exact .inl failed
    | crosses crossing => exact .inr ⟨_, _, crossing, rfl⟩
  · rintro (failed | ⟨entity, name, crossing, rfl⟩)
    · exact .unresolved failed
    · exact .crosses crossing

/-- A catalog in which tags are many-to-many, and a way without a name goes past the tags. -/
def tagged : Compiler where
  catalog := .ofList [
    ("shop::Order", ⟨["sum"], [⟨"ware", "shop::Ware", .manyToOne⟩, ⟨"", "shop::Ware", .manyToOne⟩,
      ⟨"tags", "Tag", .oneToMany⟩]⟩),
    ("shop::Ware", ⟨["size"], [⟨"tags", "Tag", .manyToMany⟩]⟩), ("Tag", ⟨["text"], []⟩)]
  aliases := ⟨.ofList [("w", "ware")], none⟩
  mapping := .empty

/-- A filter of which the second condition crosses the tags of a ware, and the last does not resolve. -/
def tagFilter : Filter := .compound .or [
  ⟨"w.size", .gt, .int 1, ""⟩, ⟨"w.tags.text", .eq, .null, ""⟩, ⟨"price", .eq, .null, ""⟩]

theorem compile_fails_first_tags :
    tagged.Named "shop::Order" tagFilter.conditions ∧
      tagged.compile "shop::Order" tagFilter = .error (.manyToMany "Ware" "tags") := by
  have named : tagged.Named "shop::Order" tagFilter.conditions := by decide +kernel
  refine ⟨named, ((compile_fails_first named).2.1 _).mpr ⟨[⟨"w.size", .gt, .int 1, ""⟩],
    ⟨"w.tags.text", .eq, .null, ""⟩, [⟨"price", .eq, .null, ""⟩], rfl, ?_, ?_⟩⟩
  · intro other member
    obtain rfl := List.mem_singleton.mp member
    decide +kernel
  · decide +kernel

-- Without a name the way to the tags of a ware is joined like that to the tags of an order.
example :
    (tagged.compile "shop::Order" (.single ⟨".tags.text", .eq, .null, ""⟩)).isOk = false ∧
      (tagged.compile "shop::Order" (.compound .and [⟨"tags.text", .eq, .null, ""⟩,
        ⟨".tags.text", .eq, .null, ""⟩])).isOk = true := by
  decide +kernel

end Compiler

end FilterQuery
