import FilterQuery.Proofs.Catalog.Route
import FilterQuery.Sql.Compile

/-!
What the compilation of a filter keeps from condition to condition. Main statement: the terms and the
resolved fields of a statement are those of the conditions one by one, and the paths of its joined
hops are the paths along which the conditions lead, each at its first need (`compile_progressed`).
-/
namespace FilterQuery

open Text Catalog Sql

theorem eraseDups_concat {α : Type} [DecidableEq α] (as : List α) (b : α) :
    (as ++ [b]).eraseDups = if b ∈ as then as.eraseDups else as.eraseDups ++ [b] := by
  rw [List.eraseDups_append]
  by_cases member : b ∈ as <;> simp [List.removeAll, member, List.eraseDups_cons]

namespace Sql

/-- The paths of the hops along associations of the given names, given the path before them. -/
def hopPathsFrom : String → List String → List String
  | _, [] => []
  | before, name :: names => extendPath before name :: hopPathsFrom (extendPath before name) names

def hopPaths (path : String) : List String := hopPathsFrom "" (segments path).dropLast

theorem map_path_hopsFrom (before source sourceName : String) (steps : List Association) :
    (hopsFrom before source sourceName steps).map Hop.path =
      hopPathsFrom before (steps.map (·.name)) := by
  induction steps generalizing before source sourceName with
  | nil => rfl
  | cons a later ih => simp [hopsFrom, hopPathsFrom, ih]

variable {joined later : List Hop} {hop : Hop}

/-- All that the joining of one hop can do. -/
theorem addHop_cases (ok : addHop joined hop = .ok later) :
    (hop.path ∈ joined.map Hop.path ∧ later = joined) ∨
      (hop.path ∉ joined.map Hop.path ∧ hop.association.kind ≠ .manyToMany ∧
        later = joined ++ [hop]) := by
  have known : joined.any (·.path = hop.path) = true ↔ hop.path ∈ joined.map Hop.path := by
    simp [List.any_eq_true]
  unfold addHop at ok
  split at ok
  · next old =>
    cases ok
    exact .inl ⟨known.mp old, rfl⟩
  · next new =>
    split at ok
    · cases ok
    · next toOne =>
      cases ok
      exact .inr ⟨fun old => new (known.mpr old), toOne, rfl⟩

/-- A hop is joined at the first need of its path. -/
theorem addHop_paths {seen : List String} (ok : addHop joined hop = .ok later)
    (paths : joined.map Hop.path = seen.eraseDups) :
    later.map Hop.path = (seen ++ [hop.path]).eraseDups := by
  have known : hop.path ∈ joined.map Hop.path ↔ hop.path ∈ seen := by
    rw [paths, List.mem_eraseDups]
  rw [eraseDups_concat]
  rcases addHop_cases ok with ⟨old, rfl⟩ | ⟨new, _, rfl⟩
  · rw [if_pos (known.mp old), paths]
  · rw [if_neg fun old => new (known.mpr old), List.map_append, paths]
    rfl

theorem addHops_paths {seen : List String} {hops : List Hop}
    (ok : hops.foldlM addHop joined = .ok later) (paths : joined.map Hop.path = seen.eraseDups) :
    later.map Hop.path = (seen ++ hops.map Hop.path).eraseDups := by
  induction hops generalizing joined seen with
  | nil =>
    cases ok
    simpa using paths
  | cons hop hops ih =>
    rw [List.foldlM_cons, bind_eq_ok_iff] at ok
    obtain ⟨next, first, rest⟩ := ok
    simpa using ih rest (addHop_paths first paths)

theorem addHops_mem {hops : List Hop} (ok : hops.foldlM addHop joined = .ok later)
    (member : hop ∈ later) : hop ∈ joined ∨ hop ∈ hops := by
  induction hops generalizing joined with
  | nil =>
    cases ok
    exact .inl member
  | cons first hops ih =>
    rw [List.foldlM_cons, bind_eq_ok_iff] at ok
    obtain ⟨next, here, rest⟩ := ok
    rcases ih rest with old | new
    · rcases addHop_cases here with ⟨_, rfl⟩ | ⟨_, _, rfl⟩
      · exact .inl old
      · rcases List.mem_append.mp old with before | same
        · exact .inl before
        · exact .inr (List.mem_cons.mpr (.inl (by simpa using same)))
    · exact .inr (List.mem_cons_of_mem _ new)

end Sql

namespace Compiler

variable {c : Compiler} {root : String}

/-- The path from the root that the field of a condition stands for. -/
def pathOf (c : Compiler) (condition : Condition) : String :=
  (c.aliases.resolve condition.field).path

/-- The column at a path from the root: the last segment of the path, in the table that is joined
under the path before it, or in the root if there is none. -/
def columnAt (c : Compiler) (root path : String) : Column :=
  match splitLast? path with
  | none => ⟨c.rootName root, path⟩
  | some (associations, name) => ⟨undotted associations, name⟩

def termAt (c : Compiler) (root : String) (condition : Condition) : Term :=
  termOf (c.columnAt root (c.pathOf condition)) condition.operator condition.value

def resolvedAt (c : Compiler) (condition : Condition) : ResolvedField :=
  ⟨condition.field, c.pathOf condition, (c.aliases.resolve condition.field).kind⟩

def hopsAlong (c : Compiler) (root : String) (steps : List Association) : List Hop :=
  hopsFrom "" root (c.rootName root) steps

theorem hopsAlong_paths {path field : String} {steps : List Association}
    (leads : c.catalog.Leads root path steps field) :
    (c.hopsAlong root steps).map Hop.path = hopPaths path := by
  rw [hopsAlong, map_path_hopsFrom, hopPaths, leads.segments_eq, List.dropLast_concat]

/-- The column of a path that leads to a field needs the hops along the path. -/
theorem column_of_leads {path field : String} {steps : List Association}
    (leads : c.catalog.Leads root path steps field) (joined : List Hop) :
    c.column root joined path = (do
      let later ← (c.hopsAlong root steps).foldlM addHop joined
      .ok (later, c.columnAt root path)) := by
  have shape := leads.segments_eq
  unfold Compiler.column columnAt
  cases cut : splitLast? path with
  | none =>
    rw [segments_of_dotless (splitLast?_eq_none_iff.mp cut)] at shape
    cases steps with
    | nil => rfl
    | cons a steps => simp at shape
  | some parts =>
    obtain ⟨associations, last⟩ := parts
    obtain ⟨rfl, dotless⟩ := splitLast?_eq_some_iff.mp cut
    rw [segments_append_dot, segments_of_dotless dotless] at shape
    have names := (List.append_inj' shape rfl).1
    have chain : c.catalog.chain root associations = .ok steps :=
      walk_eq_ok_iff.mpr ⟨leads.route, names.symm⟩
    simp only [chain]
    rfl

theorem column_eq_ok_iff {path field : String} {steps : List Association} {joined later : List Hop}
    {column : Column} (leads : c.catalog.Leads root path steps field) :
    c.column root joined path = .ok (later, column) ↔
      (c.hopsAlong root steps).foldlM addHop joined = .ok later ∧ column = c.columnAt root path := by
  rw [column_of_leads leads, bind_eq_ok_iff]
  constructor
  · rintro ⟨_, joins, same⟩
    cases same
    exact ⟨joins, rfl⟩
  · rintro ⟨joins, rfl⟩
    exact ⟨later, joins, rfl⟩

/-- What is so after some conditions: terms and resolved fields are those of the conditions, each
condition leads from the root to a field, and the joined hops lie along the ways of the conditions,
one for each path at its first need. -/
structure Progressed (c : Compiler) (root : String) (seen : List Condition) (p : Progress) : Prop where
  terms : p.terms = seen.map (c.termAt root)
  resolved : p.resolved = seen.map c.resolvedAt
  leads : ∀ condition ∈ seen, ∃ steps field, c.catalog.Leads root (c.pathOf condition) steps field
  paths : p.joined.map Hop.path = (seen.flatMap fun condition => hopPaths (c.pathOf condition)).eraseDups
  along : ∀ hop ∈ p.joined, ∃ condition ∈ seen, ∃ steps field,
    c.catalog.Leads root (c.pathOf condition) steps field ∧ hop ∈ c.hopsAlong root steps

theorem Progressed.start : c.Progressed root [] ⟨[], [], []⟩ where
  terms := rfl
  resolved := rfl
  leads := by simp
  paths := rfl
  along := by simp

theorem Progressed.step {seen : List Condition} {condition : Condition} {p next : Progress}
    (progressed : c.Progressed root seen p) (ok : c.addCondition root p condition = .ok next) :
    c.Progressed root (seen ++ [condition]) next := by
  simp only [addCondition, bind_eq_ok_iff, resolveProperty_eq_ok_iff] at ok
  obtain ⟨path, ⟨rfl, steps, field, leads⟩, ⟨later, column⟩, columnOk, same⟩ := ok
  cases same
  obtain ⟨joins, rfl⟩ := (column_eq_ok_iff leads).mp columnOk
  have paths := addHops_paths joins progressed.paths
  rw [hopsAlong_paths leads] at paths
  refine ⟨?_, ?_, ?_, ?_, ?_⟩
  · simp [progressed.terms, termAt, pathOf]
  · simp [progressed.resolved, resolvedAt, pathOf]
  · intro other member
    rcases List.mem_append.mp member with old | new
    · exact progressed.leads other old
    · obtain rfl := List.mem_singleton.mp new
      exact ⟨steps, field, leads⟩
  · simpa [pathOf] using paths
  · intro hop member
    rcases addHops_mem joins member with old | new
    · obtain ⟨other, inSeen, way⟩ := progressed.along hop old
      exact ⟨other, List.mem_append_left _ inSeen, way⟩
    · exact ⟨condition, by simp, steps, field, leads, new⟩

def run (c : Compiler) (root : String) (conditions : List Condition) : Except Fault Progress :=
  conditions.foldlM (c.addCondition root) ⟨[], [], []⟩

theorem Progressed.foldlM {seen conditions : List Condition} {p done : Progress}
    (progressed : c.Progressed root seen p)
    (ok : conditions.foldlM (c.addCondition root) p = .ok done) :
    c.Progressed root (seen ++ conditions) done := by
  induction conditions generalizing seen p with
  | nil =>
    cases ok
    simpa using progressed
  | cons condition conditions ih =>
    rw [List.foldlM_cons, bind_eq_ok_iff] at ok
    obtain ⟨next, first, rest⟩ := ok
    simpa using ih (progressed.step first) rest

/-- The statement that conditions make once they are compiled. -/
def finish (c : Compiler) (root : String) (filter : Filter) (done : Progress) : Compiled where
  statement := {
    table := tableOf c.mapping root
    name := c.rootName root
    joins := done.joined.map (Hop.join c.mapping)
    connective := filter.connective.getD .and
    terms := done.terms }
  resolved := done.resolved

/-- A compiled filter is what its conditions make one after another. -/
theorem compile_progressed {filter : Filter} {compiled : Compiled}
    (ok : c.compile root filter = .ok compiled) :
    ∃ done, c.run root filter.conditions = .ok done ∧ compiled = c.finish root filter done ∧
      c.Progressed root filter.conditions done := by
  obtain ⟨done, ran, same⟩ := bind_eq_ok_iff.mp ok
  cases same
  exact ⟨done, ran, rfl, by simpa using Progressed.start.foldlM ran⟩

end Compiler

end FilterQuery
