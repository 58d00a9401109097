import FilterQuery.Proofs.Catalog.Visits
import FilterQuery.Proofs.Sql.FirstFault

/-!
Joins against the catalog. Main statement: the joins of a compiled filter are those that the catalog
describes for the prefixes of its paths, one by one, with the tables and keys of the entities that the
prefixes go through, if no path starts with a nameless association and another one, and only then
(`joins_described_iff`).
-/
namespace FilterQuery.Compiler

open Text Catalog Sql

variable {c : Compiler} {root path : String} {filter : Filter} {compiled : Compiled} {j : Join}

/-- The name of the table that the joins for associations of the given names lead to: that of the root if
there are none. -/
def parentName (c : Compiler) (root : String) (names : List String) : String :=
  if names = [] then c.rootName root else "_".intercalate names

/-- The key between a source and the target of its association: the target of a one-to-many association keeps
the key of the source, and for the others the source keeps that of the target. No key belongs to a
many-to-many association. -/
inductive KeyedBy (source parent : String) (a : Association) (j : Join) : Prop
  | atTarget : a.kind = .oneToMany → j.column = ⟨j.name, lowercase (shortName source) ++ "_id"⟩ →
      j.equals = ⟨parent, "id"⟩ → KeyedBy source parent a j
  | atSource : a.kind = .manyToOne ∨ a.kind = .oneToOne → j.column = ⟨j.name, "id"⟩ →
      j.equals = ⟨parent, a.name ++ "_id"⟩ → KeyedBy source parent a j

/-- The join for a path of associations as the catalog describes it: entities follow one another from the
root along the names before the last, and from the source, the last of these entities, the first association
under the last name leads to the entity whose table is joined. The table is named for the whole path, and its
parent for the path without the last name. -/
structure DescribedBy (c : Compiler) (root path : String) (j : Join) (before visited : List String)
    (source : String) (e : Entity) (a : Association) : Prop where
  segments_eq : segments path = before ++ [a.name]
  visits : c.catalog.Visits root before visited
  atEnd : visited.getLast? = some source
  known : c.catalog.get? source = some e
  first : e.FirstNamed a.name a
  table : j.table = (c.mapping.get? a.target).getD (lowercase (shortName a.target))
  name : j.name = "_".intercalate (before ++ [a.name])
  key : KeyedBy source (c.parentName root before) a j

def Describes (c : Compiler) (root path : String) (j : Join) : Prop :=
  ∃ before visited source e a, c.DescribedBy root path j before visited source e a

theorem Describes.name_eq (describes : c.Describes root path j) : j.name = undotted path := by
  obtain ⟨before, _, _, _, a, d⟩ := describes
  rw [d.name, undotted_eq_intercalate, d.segments_eq]

theorem keyedBy_join (mapping : Table String) {hop : Hop} (toOne : hop.association.kind ≠ .manyToMany) :
    KeyedBy hop.source hop.sourceName hop.association (hop.join mapping) := by
  cases kind : hop.association.kind with
  | oneToMany => exact .atTarget kind (by simp [Hop.join, kind, lowerName]) (by simp [Hop.join, kind])
  | manyToOne => exact .atSource (.inl kind) (by simp [Hop.join, kind]) (by simp [Hop.join, kind])
  | oneToOne => exact .atSource (.inr kind) (by simp [Hop.join, kind]) (by simp [Hop.join, kind])
  | manyToMany => exact absurd kind toOne

theorem parentName_eq {steps : List Association} (dotless : ∀ name ∈ steps.map (·.name), '.' ∉ name.toList) :
    c.parentName root (steps.map (·.name)) = c.nameAt root steps := by
  rw [parentName, nameAt, Catalog.pathOf, undotted_joinDots dotless]
  simp only [List.map_eq_nil_iff]

/-- The hop of an association at the end of a route is joined as the catalog describes. -/
theorem describes_of_hop {hop : Hop} {before : List Association}
    (route : c.catalog.Route root (before ++ [hop.association]))
    (names : segments hop.path = (before ++ [hop.association]).map (·.name))
    (shape : hop = ⟨hop.path, terminal root before, c.nameAt root before, hop.association⟩)
    (toOne : hop.association.kind ≠ .manyToMany) : c.Describes root hop.path (hop.join c.mapping) := by
  obtain ⟨front, back⟩ := Route.append_iff.mp route
  obtain ⟨visited, visits, atEnd⟩ := front.exists_visits
  cases back with
  | @step _ e _ _ known found _ =>
    rw [List.map_append] at names
    have dotless : ∀ name ∈ before.map (·.name), '.' ∉ name.toList := by
      intro name member
      have inside : name ∈ segments hop.path := by
        rw [names]
        exact List.mem_append_left _ member
      exact dotless_of_mem_segments inside
    have key := keyedBy_join c.mapping toOne
    rw [congrArg Hop.source shape, congrArg Hop.sourceName shape, ← parentName_eq dotless] at key
    refine ⟨before.map (·.name), visited, _, e, hop.association, names, visits, atEnd, known,
      Entity.association?_eq_some_iff.mp found, hop.join_table c.mapping, ?_, key⟩
    rw [Hop.join_name, undotted_eq_intercalate, names]
    rfl

/-- The joins of a compiled filter are those that the catalog describes for the prefixes of its paths exactly
if none of these paths starts with a nameless association that another one follows. -/
theorem joins_described_iff (ok : c.compile root filter = .ok compiled) :
    (prefixesOf (compiled.resolved.map (·.path))).Forall₂ (c.Describes root) compiled.statement.joins ↔
      ∀ path ∈ compiled.resolved.map (·.path), ¬NamelessStart path := by
  obtain ⟨done, ran, rfl, progressed⟩ := compile_progressed ok
  have paths : (c.finish root filter done).resolved.map (·.path) = filter.conditions.map c.pathOf :=
    progressed.resolved_paths
  rw [paths]
  constructor
  · intro each
    have names := map_name_of_forall₂ each Describes.name_eq
    apply progressed.named_of_names
    rw [← names]
    simp [finish]
  · intro named
    rw [← progressed.prefixesOf_eq named, finish, List.forall₂_map_left_iff, List.forall₂_map_right_iff,
      List.forall₂_same]
    intro hop member
    obtain ⟨before, route, names, shape⟩ := progressed.hop_shape named member
    exact describes_of_hop route names shape (toOne_of_run ran hop member)

/-- A catalog of orders with lines, whose wares have makers. -/
def lines : Compiler where
  catalog := .ofList [
    ("shop::Order", ⟨["date"], [⟨"lines", "shop::Line", .oneToMany⟩]⟩),
    ("shop::Line", ⟨["count"], [⟨"ware", "shop::Ware", .manyToOne⟩, ⟨"ware", "shop::Order", .manyToOne⟩]⟩),
    ("shop::Ware", ⟨["size"], [⟨"maker", "shop::Maker", .oneToOne⟩]⟩),
    ("shop::Maker", ⟨["name"], [⟨"wares", "shop::Ware", .oneToMany⟩]⟩)]
  aliases := ⟨.ofList [("w", "lines.ware")], some "o"⟩
  mapping := .ofList [("shop::Ware", "goods")]

/-- The makers are joined to the wares whether or not these have been joined before. Without a name for the
first association the second is joined under a name of its own. -/
theorem joins_described_iff_lines :
    (∃ compiled, lines.compile "shop::Order" (.compound .or [⟨"w.size", .gt, .int 1, ""⟩,
        ⟨"lines.ware.maker.wares.size", .lt, .int 9, ""⟩]) = .ok compiled ∧
      compiled.statement.joins = [
        ⟨"line", "lines", ⟨"lines", "order_id"⟩, ⟨"o", "id"⟩⟩,
        ⟨"goods", "lines_ware", ⟨"lines_ware", "id"⟩, ⟨"lines", "ware_id"⟩⟩,
        ⟨"maker", "lines_ware_maker", ⟨"lines_ware_maker", "id"⟩, ⟨"lines_ware", "maker_id"⟩⟩,
        ⟨"goods", "lines_ware_maker_wares", ⟨"lines_ware_maker_wares", "maker_id"⟩,
          ⟨"lines_ware_maker", "id"⟩⟩] ∧
      (prefixesOf (compiled.resolved.map (·.path))).Forall₂ (lines.Describes "shop::Order")
        compiled.statement.joins) ∧
    ∃ compiled, nameless.compile "A" (.single ⟨".b.f", .eq, .int 1, ".b.f = 1"⟩) = .ok compiled ∧
      ¬(prefixesOf (compiled.resolved.map (·.path))).Forall₂ (nameless.Describes "A")
        compiled.statement.joins := by
  constructor
  · have shown : (lines.compile "shop::Order" (.compound .or [⟨"w.size", .gt, .int 1, ""⟩,
        ⟨"lines.ware.maker.wares.size", .lt, .int 9, ""⟩])).toOption.map
        (fun compiled => (compiled.statement.joins, compiled.resolved.map (·.path))) =
        some ([⟨"line", "lines", ⟨"lines", "order_id"⟩, ⟨"o", "id"⟩⟩,
          ⟨"goods", "lines_ware", ⟨"lines_ware", "id"⟩, ⟨"lines", "ware_id"⟩⟩,
          ⟨"maker", "lines_ware_maker", ⟨"lines_ware_maker", "id"⟩, ⟨"lines_ware", "maker_id"⟩⟩,
          ⟨"goods", "lines_ware_maker_wares", ⟨"lines_ware_maker_wares", "maker_id"⟩,
            ⟨"lines_ware_maker", "id"⟩⟩], ["lines.ware.size", "lines.ware.maker.wares.size"]) := by
      decide +kernel
    obtain ⟨compiled, ok, parts⟩ := exists_ok_of_map_toOption shown
    obtain ⟨joins, paths⟩ := Prod.mk.inj parts
    refine ⟨compiled, ok, joins, (joins_described_iff ok).mpr ?_⟩
    rw [paths]
    decide
  · have shown : (nameless.compile "A" (.single ⟨".b.f", .eq, .int 1, ".b.f = 1"⟩)).toOption.map
        (fun compiled => compiled.resolved.map (·.path)) = some [".b.f"] := by decide +kernel
    obtain ⟨compiled, ok, paths⟩ := exists_ok_of_map_toOption shown
    refine ⟨compiled, ok, ?_⟩
    rw [joins_described_iff ok, paths]
    decide

end FilterQuery.Compiler
