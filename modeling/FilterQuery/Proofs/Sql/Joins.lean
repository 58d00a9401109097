import FilterQuery.Proofs.Sql.HopPaths
import Mathlib.Data.List.Forall2

/-!
The joins of a compiled filter. There is one join for each path that some condition goes on from, in the
order of first need and under names that are bound where they are used (`Progressed.wellJoined`), except
where a condition goes first through a nameless association and then through another one
(`Progressed.named_of_names`).
-/
namespace FilterQuery

open Text Catalog Sql

namespace Sql

section Join

variable (mapping : Table String) (h : Hop)

@[simp] theorem Hop.join_name : (h.join mapping).name = undotted h.path := by
  simp [join]

@[simp] theorem Hop.join_table : (h.join mapping).table = tableOf mapping h.association.target := by
  simp [join]

@[simp] theorem Hop.join_column_table : (h.join mapping).column.table = undotted h.path := by
  by_cases many : h.association.kind = .oneToMany <;> simp [join, many]

@[simp] theorem Hop.join_equals_table : (h.join mapping).equals.table = h.sourceName := by
  by_cases many : h.association.kind = .oneToMany <;> simp [join, many]

end Join

/-- The path along associations, given the path before them. -/
def pathAfter (before : String) (steps : List Association) : String :=
  steps.foldl (fun path a => extendPath path a.name) before

/-- A hop starts where the associations before it end. -/
theorem hopsFrom_mem {before source sourceName : String} {steps : List Association} {hop : Hop}
    (member : hop ∈ hopsFrom before source sourceName steps) :
    ∃ front a back, steps = front ++ a :: back ∧
      hop = ⟨pathAfter before (front ++ [a]), terminal source front,
        if front = [] then sourceName else undotted (pathAfter before front), a⟩ := by
  induction steps generalizing before source sourceName with
  | nil => cases member
  | cons first later ih =>
    rcases List.mem_cons.mp member with here | there
    · exact ⟨[], first, later, rfl, here⟩
    · obtain ⟨front, a, back, rfl, rfl⟩ := ih there
      refine ⟨first :: front, a, back, rfl, ?_⟩
      by_cases empty : front = []
      · rw [empty]
        rfl
      · rw [if_neg empty, if_neg (List.cons_ne_nil _ _)]
        rfl

theorem pathAfter_eq {steps : List Association}
    (dotless : ∀ name ∈ steps.map (·.name), '.' ∉ name.toList) :
    pathAfter "" steps = withoutLead (Catalog.pathOf steps) := by
  induction steps using List.reverseRecOn with
  | nil => decide
  | append_singleton steps a ih =>
    simp only [List.map_append, List.mem_append] at dotless
    have here : '.' ∉ a.name.toList := dotless a.name (.inr (by simp))
    have before := ih fun name member => dotless name (.inl member)
    have extended : pathAfter "" (steps ++ [a]) = extendPath (pathAfter "" steps) a.name := by
      rw [pathAfter, List.foldl_append]
      rfl
    rw [extended, before, extendPath_withoutLead _ here]
    by_cases first : steps = []
    · rw [first]
      exact withoutLead_dot a.name
    · rw [Catalog.pathOf, Catalog.pathOf, List.map_append,
        joinDots_append (by simpa using first) (by simp)]
      rfl

def Term.column? : Term → Option Column
  | .isNull column _ | .compare column _ _ | .like column _ | .isIn column _ _ _ => some column
  | .constant _ => none

theorem termOf_column {column other : Column} {operator : Operator} {value : Value}
    (about : (termOf column operator value).column? = some other) : other = column := by
  have inList : ∀ {negated literals}, (isInTerm column negated literals).column? = some other →
      other = column := by
    intro negated literals about
    cases literals with
    | nil => cases about
    | cons => exact (Option.some.inj about).symm
  cases operator with
  | eq | neq =>
    rw [termOf] at about
    split at about <;> exact (Option.some.inj about).symm
  | inList | notInList => exact inList about
  | _ => exact (Option.some.inj about).symm

/-- Every table name that a statement uses is bound in it: a join uses its own name and one from
before it, and the conditions use the name of the root or of a join. -/
structure Statement.Scoped (s : Statement) : Prop where
  joins : ∀ before j after, s.joins = before ++ j :: after →
    j.column.table = j.name ∧ (j.equals.table = s.name ∨ j.equals.table ∈ before.map Join.name)
  terms : ∀ t ∈ s.terms, ∀ column, t.column? = some column →
    column.table = s.name ∨ column.table ∈ s.joins.map Join.name

end Sql

namespace Compiler

variable {c : Compiler} {root : String} {filter : Filter} {compiled : Compiled}

/-- The name of the table that associations from the root lead to. -/
def nameAt (c : Compiler) (root : String) (steps : List Association) : String :=
  if steps = [] then c.rootName root else undotted (Catalog.pathOf steps)

/-- The join leads from the root along the path: its last hop is an association of the entity that
the hops before it lead to. -/
def JoinsAt (c : Compiler) (root path : String) (j : Join) : Prop :=
  ∃ before a, c.catalog.Route root (before ++ [a]) ∧
    segments path = (before ++ [a]).map (·.name) ∧
    j = Hop.join c.mapping ⟨path, terminal root before, c.nameAt root before, a⟩

/-- The joins of a statement are those of the prefixes of the given paths one by one, each prefix
once and behind its own, and every table name is bound where it is used. -/
structure WellJoined (c : Compiler) (root : String) (paths : List String) (s : Statement) : Prop where
  joins : (prefixesOf paths).Forall₂ (c.JoinsAt root) s.joins
  needed : ∀ start, start ∈ prefixesOf paths ↔ ∃ path ∈ paths, ∃ rest, path = start ++ "." ++ rest
  once : (prefixesOf paths).Nodup
  parents : ParentsFirst (prefixesOf paths)
  bound : s.Scoped

section Joined

variable {seen : List Condition} {p : Progress}

theorem Progressed.joined_paths (progressed : c.Progressed root seen p) :
    p.joined.map Hop.path =
      (((seen.map c.pathOf).flatMap properPrefixes).map withoutLead).eraseDups := by
  rw [progressed.paths, List.map_flatMap, List.flatMap_map]
  simp only [hopPaths_eq]

theorem Progressed.prefixesOf_eq (progressed : c.Progressed root seen p)
    (named : ∀ path ∈ seen.map c.pathOf, ¬NamelessStart path) :
    p.joined.map Hop.path = prefixesOf (seen.map c.pathOf) := by
  have same : ∀ start ∈ (seen.map c.pathOf).flatMap properPrefixes, withoutLead start = start := by
    intro start member
    obtain ⟨path, inPaths, isPrefix⟩ := List.mem_flatMap.mp member
    by_contra changed
    exact named path inPaths (namelessStart_iff.mpr ⟨start, isPrefix, changed⟩)
  rw [progressed.joined_paths, prefixesOf, List.map_congr_left same, List.map_id']

/-- A hop on the way of a path leads to the prefix of the path that it is joined under. -/
theorem hop_of_leads {path field : String} {steps : List Association} {hop : Hop}
    (leads : c.catalog.Leads root path steps field) (named : ¬NamelessStart path)
    (member : hop ∈ c.hopsAlong root steps) :
    ∃ before, c.catalog.Route root (before ++ [hop.association]) ∧
      segments hop.path = (before ++ [hop.association]).map (·.name) ∧
      hop = ⟨hop.path, terminal root before, c.nameAt root before, hop.association⟩ := by
  obtain ⟨front, a, back, rfl, rfl⟩ := hopsFrom_mem member
  have dotless := leads.dotless
  simp only [List.map_append, List.map_cons, List.mem_append] at dotless
  have shape : front ++ a :: back = (front ++ [a]) ++ back := by simp
  -- The ends of the way's first associations are prefixes of the path, so none starts with a dot.
  have noLead : ∀ {first later : List Association}, front ++ a :: back = first ++ later →
      first ≠ [] → withoutLead (Catalog.pathOf first) = Catalog.pathOf first := by
    intro first later split nonempty
    rw [split] at leads
    by_contra changed
    exact named (namelessStart_iff.mpr ⟨_, leads.pathOf_mem_properPrefixes nonempty, changed⟩)
  have frontDotless : ∀ name ∈ front.map (·.name), '.' ∉ name.toList :=
    fun name inFront => dotless name (.inl (.inl inFront))
  have hereDotless : ∀ name ∈ (front ++ [a]).map (·.name), '.' ∉ name.toList := by
    intro name inside
    rw [List.map_append, List.mem_append] at inside
    rcases inside with inFront | same
    · exact frontDotless name inFront
    · obtain rfl := List.mem_singleton.mp same
      exact dotless a.name (.inl (.inr (by simp)))
  have here : pathAfter "" (front ++ [a]) = Catalog.pathOf (front ++ [a]) := by
    rw [pathAfter_eq hereDotless, noLead shape (by simp)]
  have source : (if front = [] then c.rootName root else undotted (pathAfter "" front)) =
      c.nameAt root front := by
    rw [nameAt]
    by_cases first : front = []
    · rw [if_pos first, if_pos first]
    · rw [if_neg first, if_neg first, pathAfter_eq frontDotless, noLead rfl first]
  have route := leads.route
  rw [shape] at route
  refine ⟨front, (Route.append_iff.mp route).1, ?_, ?_⟩
  · rw [here]
    exact segments_joinDots (by simp) hereDotless
  · rw [source]

/-- Each joined hop is an association on the way of a condition. -/
theorem Progressed.hop_shape (progressed : c.Progressed root seen p)
    (named : ∀ path ∈ seen.map c.pathOf, ¬NamelessStart path) {hop : Hop} (member : hop ∈ p.joined) :
    ∃ before, c.catalog.Route root (before ++ [hop.association]) ∧
      segments hop.path = (before ++ [hop.association]).map (·.name) ∧
      hop = ⟨hop.path, terminal root before, c.nameAt root before, hop.association⟩ := by
  obtain ⟨condition, inSeen, steps, field, leads, inWay⟩ := progressed.along hop member
  exact hop_of_leads leads (named _ (List.mem_map_of_mem inSeen)) inWay

theorem Progressed.joinsAt (progressed : c.Progressed root seen p)
    (named : ∀ path ∈ seen.map c.pathOf, ¬NamelessStart path) :
    ∀ hop ∈ p.joined, c.JoinsAt root hop.path (hop.join c.mapping) := by
  intro hop member
  obtain ⟨before, route, names, shape⟩ := progressed.hop_shape named member
  exact ⟨before, hop.association, route, names, by rw [← shape]⟩

end Joined

theorem JoinsAt.name_eq {path : String} {j : Join} (joins : c.JoinsAt root path j) :
    j.name = undotted path ∧ j.column.table = j.name := by
  obtain ⟨before, a, _, _, rfl⟩ := joins
  simp

theorem map_name_of_forall₂ {related : String → Join → Prop} {paths : List String} {joins : List Join}
    (each : paths.Forall₂ related joins) (name_eq : ∀ {path j}, related path j → j.name = undotted path) :
    joins.map Join.name = paths.map undotted := by
  induction each with
  | nil => rfl
  | cons here _ ih => rw [List.map_cons, List.map_cons, name_eq here, ih]

theorem map_name_of_joins {paths : List String} {joins : List Join}
    (each : paths.Forall₂ (c.JoinsAt root) joins) : joins.map Join.name = paths.map undotted :=
  map_name_of_forall₂ each fun joins => joins.name_eq.1

/-- A join uses the root, or a join that stands before it. -/
theorem equals_bound {paths : List String} {joins before after : List Join} {j : Join}
    (each : paths.Forall₂ (c.JoinsAt root) joins) (parents : ParentsFirst paths)
    (split : joins = before ++ j :: after) :
    j.equals.table = c.rootName root ∨ j.equals.table ∈ before.map Join.name := by
  obtain ⟨front, path, back, rfl, earlier, here⟩ : ∃ front path back, paths = front ++ path :: back ∧
      front.Forall₂ (c.JoinsAt root) before ∧ c.JoinsAt root path j := by
    subst split
    have rest := List.forall₂_drop_append _ _ _ each
    obtain ⟨path, back, here, _, shape⟩ := List.forall₂_cons_right_iff.mp rest
    refine ⟨_, path, back, ?_, List.forall₂_take_append _ _ _ each, here⟩
    rw [← shape, List.take_append_drop]
  obtain ⟨steps, a, _, names, rfl⟩ := here
  -- It is the table at the prefix before, which `parents` puts in front.
  rw [Hop.join_equals_table, nameAt]
  by_cases first : steps = []
  · exact .inl (if_pos first)
  · rw [if_neg first]
    rw [eq_pathOf_append_dot names first] at parents
    have known := parents front (Catalog.pathOf steps) a.name back rfl
    rw [map_name_of_joins earlier]
    exact .inr (List.mem_map_of_mem known)

/-- The column of a condition is in the root, or in the table of a prefix of its path. -/
theorem columnAt_bound {paths : List String} {path : String} (member : path ∈ paths) :
    (c.columnAt root path).table = c.rootName root ∨
      (c.columnAt root path).table ∈ (prefixesOf paths).map undotted := by
  unfold columnAt
  cases cut : splitLast? path with
  | none => exact .inl rfl
  | some parts =>
    obtain ⟨associations, name⟩ := parts
    obtain ⟨shape, _⟩ := splitLast?_eq_some_iff.mp cut
    exact .inr (List.mem_map_of_mem (mem_prefixesOf.mpr ⟨path, member, name, shape⟩))

theorem columnAt_of_leads {path field : String} {steps : List Association}
    (leads : c.catalog.Leads root path steps field) :
    c.columnAt root path = ⟨c.nameAt root steps, field⟩ := by
  have dotless : '.' ∉ field.toList := leads.dotless field (by simp)
  have shape := leads.path_eq
  unfold columnAt nameAt
  by_cases first : steps = []
  · rw [first] at shape
    obtain rfl : path = field := shape
    rw [splitLast?_eq_none_iff.mpr dotless, if_pos first]
  · rw [joinDots_append (by simpa using first) (by simp)] at shape
    rw [splitLast?_eq_some_iff.mpr ⟨shape, dotless⟩, if_neg first]
    rfl

theorem Progressed.named_of_names {seen : List Condition} {p : Progress}
    (progressed : c.Progressed root seen p)
    (names : p.joined.map (fun hop => undotted hop.path) =
      (prefixesOf (seen.map c.pathOf)).map undotted) :
    ∀ path ∈ seen.map c.pathOf, ¬NamelessStart path := by
  -- Names of the same lengths on both sides leave no prefix that has lost its leading dots.
  have shrinks : ∀ path, (withoutLead path).toList.length ≤ path.toList.length := by
    intro path
    have shorter := (List.dropWhile_sublist (l := path.toList) (· == '.')).length_le
    simpa [withoutLead] using shorter
  have undottedSize : ∀ path, (undotted path).toList.length = path.toList.length := by
    intro path
    simp [undotted]
  have sizes := congrArg (List.map (·.toList.length)) names
  have joined : p.joined.map (fun hop => undotted hop.path) = (p.joined.map Hop.path).map undotted := by
    simp
  rw [joined, progressed.joined_paths, prefixesOf, List.map_map, List.map_map] at sizes
  simp only [Function.comp_def, undottedSize] at sizes
  intro path inPaths nameless
  obtain ⟨start, isPrefix, changed⟩ := namelessStart_iff.mp nameless
  have member : start ∈ (seen.map c.pathOf).flatMap properPrefixes :=
    List.mem_flatMap.mpr ⟨path, inPaths, isPrefix⟩
  have kept := sizes_kept (fun p : String => p.toList.length) withoutLead shrinks sizes start member
  have suffix : (withoutLead start).toList <:+ start.toList := by
    simpa [withoutLead] using List.dropWhile_suffix (l := start.toList) (· == '.')
  exact changed (String.toList_injective (suffix.eq_of_length kept))

theorem Progressed.resolved_paths {seen : List Condition} {p : Progress}
    (progressed : c.Progressed root seen p) : p.resolved.map (·.path) = seen.map c.pathOf := by
  rw [progressed.resolved, List.map_map]
  rfl

theorem Progressed.wellJoined {done : Progress}
    (progressed : c.Progressed root filter.conditions done)
    (named : ∀ path ∈ filter.conditions.map c.pathOf, ¬NamelessStart path) :
    c.WellJoined root (filter.conditions.map c.pathOf) (c.finish root filter done).statement := by
  have paths := progressed.prefixesOf_eq named
  have each : (prefixesOf (filter.conditions.map c.pathOf)).Forall₂ (c.JoinsAt root)
      (done.joined.map (Hop.join c.mapping)) := by
    rw [← paths, List.forall₂_map_left_iff, List.forall₂_map_right_iff, List.forall₂_same]
    exact progressed.joinsAt named
  have parents := parentsFirst_prefixesOf (filter.conditions.map c.pathOf)
  refine ⟨each, fun _ => mem_prefixesOf, nodup_eraseDups _, parents, ?_, ?_⟩
  · intro before j after split
    have member : j ∈ done.joined.map (Hop.join c.mapping) := by
      change done.joined.map (Hop.join c.mapping) = _ at split
      rw [split]
      simp
    obtain ⟨hop, inJoined, rfl⟩ := List.mem_map.mp member
    exact ⟨(progressed.joinsAt named hop inJoined).name_eq.2, equals_bound each parents split⟩
  · intro t member column about
    change t ∈ done.terms at member
    rw [progressed.terms] at member
    obtain ⟨condition, inFilter, rfl⟩ := List.mem_map.mp member
    rw [termOf_column about]
    have bound : (c.columnAt root (c.pathOf condition)).table = c.rootName root ∨ _ :=
      columnAt_bound (List.mem_map_of_mem inFilter)
    rw [← map_name_of_joins each] at bound
    exact bound

/-- The joins of a compiled filter are as they ought to be exactly if none of its paths starts with a
nameless association that another one follows. -/
theorem wellJoined_iff (ok : c.compile root filter = .ok compiled) :
    c.WellJoined root (compiled.resolved.map (·.path)) compiled.statement ↔
      ∀ path ∈ compiled.resolved.map (·.path), ¬NamelessStart path := by
  obtain ⟨done, _, rfl, progressed⟩ := compile_progressed ok
  have paths : (c.finish root filter done).resolved.map (·.path) = filter.conditions.map c.pathOf :=
    progressed.resolved_paths
  rw [paths]
  constructor
  · intro well
    have names := map_name_of_joins well.joins
    apply progressed.named_of_names
    rw [← names]
    simp [finish]
  · exact progressed.wellJoined

/-- A catalog with an association that has no name, and one more behind it. -/
def nameless : Compiler where
  catalog := .ofList [("A", ⟨[], [⟨"", "B", .manyToOne⟩]⟩), ("B", ⟨[], [⟨"b", "C", .manyToOne⟩]⟩),
    ("C", ⟨["f"], []⟩)]
  aliases := .empty
  mapping := .empty

/-- The column is in a table of a name that no join has. -/
theorem wellJoined_iff_nameless :
    ∃ compiled, nameless.compile "A" (.single ⟨".b.f", .eq, .int 1, ".b.f = 1"⟩) = .ok compiled ∧
      compiled.statement.joins.map Join.name = ["", "b"] ∧
      compiled.statement.terms.map Term.column? = [some ⟨"_b", "f"⟩] ∧
      ¬nameless.WellJoined "A" (compiled.resolved.map (·.path)) compiled.statement := by
  have shown : (nameless.compile "A" (.single ⟨".b.f", .eq, .int 1, ".b.f = 1"⟩)).toOption.map
      (fun compiled => (compiled.statement.joins.map Join.name,
        compiled.statement.terms.map Term.column?, compiled.resolved.map (·.path))) =
      some (["", "b"], [some ⟨"_b", "f"⟩], [".b.f"]) := by decide +kernel
  obtain ⟨compiled, ok, parts⟩ := exists_ok_of_map_toOption shown
  simp only [Prod.mk.injEq] at parts
  obtain ⟨names, columns, paths⟩ := parts
  refine ⟨compiled, ok, names, columns, ?_⟩
  rw [wellJoined_iff ok, paths]
  decide

end Compiler

end FilterQuery
