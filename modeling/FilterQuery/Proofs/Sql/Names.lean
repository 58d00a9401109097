import FilterQuery.Proofs.Sql.Joins

/-!
The table names of a compiled filter. Main statements: no name is given twice exactly if the prefixes
that are joined stay apart, from one another and from the root, when underscores take the place of
their dots (`WellJoined.nodup_iff`), and each name then stands for the table of the entity that its
path leads to (`WellJoined.wellNamed`).
-/
namespace FilterQuery

open Text Catalog Sql

theorem exists_of_forall₂ {α β : Type} {r : α → β → Prop} {as : List α} {bs : List β}
    (each : as.Forall₂ r bs) {a : α} (member : a ∈ as) : ∃ b ∈ bs, r a b := by
  induction each with
  | nil => cases member
  | @cons first partner _ _ here _ ih =>
    rcases List.mem_cons.mp member with rfl | later
    · exact ⟨partner, List.mem_cons_self, here⟩
    · obtain ⟨b, inside, related⟩ := ih later
      exact ⟨b, List.mem_cons_of_mem _ inside, related⟩

namespace Sql.Statement

/-- The names that a statement gives, and the tables that it gives them to. -/
def tables (s : Statement) : List (String × String) :=
  (s.name, s.table) :: s.joins.map fun j => (j.name, j.table)

def names (s : Statement) : List String := s.tables.map Prod.fst

def tablesNamed (s : Statement) (name : String) : List String :=
  (s.tables.filter (·.1 = name)).map Prod.snd

theorem names_eq (s : Statement) : s.names = s.name :: s.joins.map Join.name := by
  simp [names, tables]

/-- Where no name is given twice, each is that of one table. -/
theorem values_eq_of_mem {entries : List (String × String)} {key value : String}
    (distinct : (entries.map Prod.fst).Nodup) (member : (key, value) ∈ entries) :
    (entries.filter (·.1 = key)).map Prod.snd = [value] := by
  induction entries with
  | nil => cases member
  | cons entry entries ih =>
    rw [List.map_cons, List.nodup_cons] at distinct
    obtain ⟨new, distinct⟩ := distinct
    rcases List.mem_cons.mp member with here | later
    · have others : entries.filter (·.1 = key) = [] := by
        rw [List.filter_eq_nil_iff]
        intro other inside same
        rw [← here] at new
        exact new (List.mem_map.mpr ⟨other, inside, of_decide_eq_true same⟩)
      rw [← here, List.filter_cons_of_pos (by simp), others]
      rfl
    · have differs : entry.1 ≠ key := by
        intro same
        rw [same] at new
        exact new (List.mem_map.mpr ⟨_, later, rfl⟩)
      rw [List.filter_cons_of_neg (by simpa using differs)]
      exact ih distinct later

theorem tablesNamed_eq {s : Statement} {name table : String} (distinct : s.names.Nodup)
    (member : (name, table) ∈ s.tables) : s.tablesNamed name = [table] :=
  values_eq_of_mem distinct member

end Sql.Statement

namespace Compiler

variable {c : Compiler} {root : String} {filter : Filter} {compiled : Compiled}

/-- The paths have different names when their dots are underscores, and the root has another one. -/
def TellsApart (c : Compiler) (root : String) (paths : List String) : Prop :=
  (∀ path ∈ paths, undotted path ≠ c.rootName root) ∧
    ∀ first ∈ paths, ∀ second ∈ paths, undotted first = undotted second → first = second

instance (c : Compiler) (root : String) (paths : List String) : Decidable (c.TellsApart root paths) :=
  inferInstanceAs (Decidable (_ ∧ _))

/-- The terms are those of the conditions, and each table name stands for one table. In the column of a
condition it is the table of the entity to which the associations of its path lead, and which has the
field; in a join it is those of the entities at both ends of the last association of a prefix. -/
structure WellNamed (c : Compiler) (root : String) (conditions : List Condition) (s : Statement) :
    Prop where
  terms : s.terms = conditions.map (c.termAt root)
  columns : ∀ condition ∈ conditions, ∃ steps field,
    c.catalog.Leads root (c.pathOf condition) steps field ∧
      ∀ column, (c.termAt root condition).column? = some column →
        column.name = field ∧ s.tablesNamed column.table = [tableOf c.mapping (terminal root steps)]
  joins : ∀ j ∈ s.joins, ∃ start ∈ prefixesOf (conditions.map c.pathOf), ∃ before a,
    c.catalog.Route root (before ++ [a]) ∧ segments start = (before ++ [a]).map (·.name) ∧
      s.tablesNamed j.column.table = [tableOf c.mapping a.target] ∧
      s.tablesNamed j.equals.table = [tableOf c.mapping (terminal root before)]

section WellJoined

variable {paths : List String} {s : Statement}

theorem JoinsAt.entry_mem {path : String} {j : Join} {steps : List Association}
    (joins : c.JoinsAt root path j) (member : j ∈ s.joins) (route : c.catalog.Route root steps)
    (names : segments path = steps.map (·.name)) :
    (undotted path, tableOf c.mapping (terminal root steps)) ∈ s.tables := by
  obtain ⟨before, a, route', names', rfl⟩ := joins
  obtain rfl := route.eq_of_names route' (names.symm.trans names')
  have entry : (undotted path, tableOf c.mapping (terminal root (before ++ [a]))) =
      ((Hop.join c.mapping ⟨path, terminal root before, c.nameAt root before, a⟩).name,
        (Hop.join c.mapping ⟨path, terminal root before, c.nameAt root before, a⟩).table) := by
    rw [Hop.join_name, Hop.join_table, terminal_append]
    rfl
  rw [entry]
  exact List.mem_cons_of_mem _ (List.mem_map.mpr ⟨_, member, rfl⟩)

/-- Where associations lead that are those of a prefix, or none at all, the statement names the table
of the entity. -/
theorem WellJoined.entry_mem (well : c.WellJoined root paths s)
    (atRoot : s.name = c.rootName root ∧ s.table = tableOf c.mapping root)
    {steps : List Association} (route : c.catalog.Route root steps)
    (needed : steps ≠ [] → ∃ start ∈ prefixesOf paths, segments start = steps.map (·.name)) :
    (c.nameAt root steps, tableOf c.mapping (terminal root steps)) ∈ s.tables := by
  by_cases first : steps = []
  · rw [nameAt, if_pos first, first, ← atRoot.1]
    change (s.name, tableOf c.mapping root) ∈ s.tables
    rw [← atRoot.2]
    exact List.mem_cons_self
  · obtain ⟨start, isPrefix, names⟩ := needed first
    have path : start = Catalog.pathOf steps := by
      rw [← joinDots_segments start, names]
      rfl
    obtain ⟨j, member, joins⟩ := exists_of_forall₂ well.joins isPrefix
    rw [nameAt, if_neg first, ← path]
    exact joins.entry_mem member route names

/-- The names that are given are as many as the prefixes, and one for the root, if they can be told
apart. -/
theorem WellJoined.nodup_iff (well : c.WellJoined root paths s) (atRoot : s.name = c.rootName root) :
    s.names.Nodup ↔ c.TellsApart root (prefixesOf paths) := by
  rw [Statement.names_eq, map_name_of_joins well.joins, List.nodup_cons, atRoot,
    List.nodup_map_iff_inj_on well.once, TellsApart]
  refine and_congr_left fun _ => ?_
  simp only [List.mem_map, not_exists, not_and]

theorem WellJoined.wellNamed {conditions : List Condition}
    (well : c.WellJoined root (conditions.map c.pathOf) s)
    (atRoot : s.name = c.rootName root ∧ s.table = tableOf c.mapping root)
    (terms : s.terms = conditions.map (c.termAt root))
    (leads : ∀ condition ∈ conditions, ∃ steps field,
      c.catalog.Leads root (c.pathOf condition) steps field)
    (distinct : s.names.Nodup) : c.WellNamed root conditions s := by
  refine ⟨terms, fun condition member => ?_, fun j member => ?_⟩
  · obtain ⟨steps, field, way⟩ := leads condition member
    refine ⟨steps, field, way, fun column about => ?_⟩
    obtain rfl := (termOf_column about).trans (columnAt_of_leads way)
    have needed : steps ≠ [] → ∃ start ∈ prefixesOf (conditions.map c.pathOf),
        segments start = steps.map (·.name) := by
      intro nonempty
      refine ⟨Catalog.pathOf steps, mem_prefixesOf.mpr ⟨_, List.mem_map_of_mem member, ?_⟩, ?_⟩
      · rw [← mem_properPrefixes]
        rw [← List.append_nil steps] at way
        exact way.pathOf_mem_properPrefixes nonempty
      · exact segments_joinDots (by simpa using nonempty)
          fun name inside => way.dotless name (List.mem_append_left _ inside)
    exact ⟨rfl, Statement.tablesNamed_eq distinct (well.entry_mem atRoot way.route needed)⟩
  · obtain ⟨start, isPrefix, before, a, route, names, rfl⟩ := exists_of_forall₂ well.joins.flip member
    have source : before ≠ [] → ∃ start ∈ prefixesOf (conditions.map c.pathOf),
        segments start = before.map (·.name) := by
      intro nonempty
      obtain ⟨path, inPaths, rest, rfl⟩ := mem_prefixesOf.mp isPrefix
      refine ⟨Catalog.pathOf before, mem_prefixesOf.mpr ⟨_, inPaths, a.name ++ "." ++ rest, ?_⟩, ?_⟩
      · rw [eq_pathOf_append_dot names nonempty]
        simp only [String.append_assoc]
      · refine segments_joinDots (by simpa using nonempty) fun name inside => ?_
        have inStart : name ∈ segments start := by
          rw [names, List.map_append]
          exact List.mem_append_left _ inside
        exact dotless_of_mem_segments inStart
    have origin := well.entry_mem atRoot (Route.append_iff.mp route).1 source
    have target : (undotted start, tableOf c.mapping (terminal root (before ++ [a]))) ∈ s.tables :=
      JoinsAt.entry_mem ⟨before, a, route, names, rfl⟩ member route names
    rw [terminal_append] at target
    refine ⟨start, isPrefix, before, a, route, names, ?_, ?_⟩
    · rw [Hop.join_column_table]
      exact Statement.tablesNamed_eq distinct target
    · rw [Hop.join_equals_table]
      exact Statement.tablesNamed_eq distinct origin

end WellJoined

/-- Unless a path starts with a nameless association that another one follows, a compiled filter gives
no table name twice exactly if the prefixes can be told apart, and then each name it uses is that of
one table, the one of the entity which the path leads to. -/
theorem names_nodup_iff (ok : c.compile root filter = .ok compiled)
    (named : ∀ path ∈ compiled.resolved.map (·.path), ¬NamelessStart path) :
    (compiled.statement.names.Nodup ↔
        c.TellsApart root (prefixesOf (compiled.resolved.map (·.path)))) ∧
      (compiled.statement.names.Nodup → c.WellNamed root filter.conditions compiled.statement) := by
  obtain ⟨done, _, rfl, progressed⟩ := compile_progressed ok
  have paths : (c.finish root filter done).resolved.map (·.path) = filter.conditions.map c.pathOf :=
    progressed.resolved_paths
  rw [paths] at named ⊢
  have well := progressed.wellJoined named
  refine ⟨well.nodup_iff rfl, fun distinct => ?_⟩
  exact well.wellNamed ⟨rfl, rfl⟩ progressed.terms progressed.leads distinct

/-- A catalog of products with the countries of their manufacturers. -/
def products : Compiler where
  catalog := .ofList [
    ("Product", ⟨["price"], [⟨"manufacturer", "Manufacturer", .manyToOne⟩]⟩),
    ("Manufacturer", ⟨["name"], [⟨"country", "Country", .manyToOne⟩]⟩), ("Country", ⟨["code"], []⟩)]
  aliases := ⟨.ofList [("m", "manufacturer")], some "p"⟩
  mapping := .ofList [("Product", "products")]

theorem names_nodup_iff_products :
    ∃ compiled, products.compile "Product" (.compound .and [
        ⟨"m.country.code", .eq, .text "DE", "m.country.code = 'DE'"⟩,
        ⟨"manufacturer.name", .isNotNull, .null, "manufacturer.name IS NOT NULL"⟩]) = .ok compiled ∧
      compiled.statement.names = ["p", "manufacturer", "manufacturer_country"] ∧
      products.TellsApart "Product" (prefixesOf (compiled.resolved.map (·.path))) := by
  have shown : (products.compile "Product" (.compound .and [
      ⟨"m.country.code", .eq, .text "DE", "m.country.code = 'DE'"⟩,
      ⟨"manufacturer.name", .isNotNull, .null, "manufacturer.name IS NOT NULL"⟩])).toOption.map
      (fun compiled => (compiled.statement.names, compiled.resolved.map (·.path))) =
      some (["p", "manufacturer", "manufacturer_country"],
        ["manufacturer.country.code", "manufacturer.name"]) := by decide +kernel
  obtain ⟨compiled, ok, parts⟩ := exists_ok_of_map_toOption shown
  obtain ⟨names, paths⟩ := Prod.mk.inj parts
  refine ⟨compiled, ok, names, (names_nodup_iff ok ?_).1.mp ?_⟩
  · rw [paths]
    decide +kernel
  · rw [names]
    decide

/-- A catalog with associations whose names are those of others with an underscore between. -/
def entangled : Compiler where
  catalog := .ofList [("E", ⟨["x"], [⟨"a", "E", .manyToOne⟩, ⟨"b_c", "E", .manyToOne⟩,
    ⟨"a_b", "E", .manyToOne⟩, ⟨"c", "E", .manyToOne⟩]⟩)]
  aliases := .empty
  mapping := .empty

/-- Two different prefixes may have the same name. -/
theorem names_not_nodup :
    ∃ compiled, entangled.compile "E" (.compound .and [⟨"a.b_c.x", .eq, .int 1, "a.b_c.x = 1"⟩,
        ⟨"a_b.c.x", .eq, .int 2, "a_b.c.x = 2"⟩]) = .ok compiled ∧
      ¬compiled.statement.names.Nodup := by
  have shown : (entangled.compile "E" (.compound .and [⟨"a.b_c.x", .eq, .int 1, "a.b_c.x = 1"⟩,
      ⟨"a_b.c.x", .eq, .int 2, "a_b.c.x = 2"⟩])).toOption.map (·.statement.names) =
      some ["e", "a", "a_b_c", "a_b", "a_b_c"] := by decide +kernel
  obtain ⟨compiled, ok, names⟩ := exists_ok_of_map_toOption shown
  refine ⟨compiled, ok, ?_⟩
  rw [names]
  decide

end Compiler

end FilterQuery
