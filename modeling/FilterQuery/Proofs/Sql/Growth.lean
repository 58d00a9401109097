import FilterQuery.Proofs.Catalog.Growth
import FilterQuery.Proofs.Sql.Compile

/-!
Filters compiled with catalogs that grow. Main statement: whatever succeeds with a catalog does the same
with a larger one (`growth_conservative`).
-/
namespace FilterQuery.Compiler

open Text Catalog

variable {c d : Catalog} {aliases : Registry} {mapping : Table String} {root : String}

/-- The column at a path does not depend on the catalog, apart from where the path leads. -/
theorem column_grown (grown : c.GrowsTo d) {path field : String} {steps : List Association}
    (leads : c.Leads root path steps field) (joined : List Sql.Hop) :
    (Compiler.mk c aliases mapping).column root joined path =
      (Compiler.mk d aliases mapping).column root joined path := by
  have before := column_of_leads (c := ⟨c, aliases, mapping⟩) leads joined
  have after := column_of_leads (c := ⟨d, aliases, mapping⟩) (leads.grown grown) joined
  exact before.trans after.symm

theorem addCondition_grown (grown : c.GrowsTo d) {p next : Progress} {condition : Condition}
    (ok : (Compiler.mk c aliases mapping).addCondition root p condition = .ok next) :
    (Compiler.mk d aliases mapping).addCondition root p condition = .ok next := by
  simp only [addCondition, bind_eq_ok_iff] at ok ⊢
  obtain ⟨path, resolves, done, columns, same⟩ := ok
  obtain ⟨rfl, steps, field, leads⟩ := resolveProperty_eq_ok_iff.mp resolves
  exact ⟨_, resolveProperty_grown grown resolves, done, column_grown grown leads _ ▸ columns, same⟩

theorem compile_grown (grown : c.GrowsTo d) {filter : Filter} {compiled : Compiled}
    (ok : (Compiler.mk c aliases mapping).compile root filter = .ok compiled) :
    (Compiler.mk d aliases mapping).compile root filter = .ok compiled := by
  simp only [compile, bind_eq_ok_iff] at ok ⊢
  obtain ⟨done, ran, same⟩ := ok
  exact ⟨done, foldlM_eq_ok_of_imp (addCondition_grown grown) ran, same⟩

/-- A path that resolves in a catalog resolves to the same in a larger one, and so does a path of
associations, with the same chain; and a filter that compiles has the same statement and the same resolved
fields. -/
theorem growth_conservative (grown : c.GrowsTo d) :
    (∀ entity path,
      (∀ resolved, c.resolveProperty entity path = .ok resolved →
        d.resolveProperty entity path = .ok resolved) ∧
      (∀ there, c.resolveAssociation entity path = .ok there →
        d.resolveAssociation entity path = .ok there) ∧
      ∀ steps, c.chain entity path = .ok steps → d.chain entity path = .ok steps) ∧
    ∀ aliases mapping root filter compiled,
      (Compiler.mk c aliases mapping).compile root filter = .ok compiled →
        (Compiler.mk d aliases mapping).compile root filter = .ok compiled := by
  refine ⟨fun entity path => ⟨fun resolved => resolveProperty_grown grown,
    fun there => resolveAssociation_grown grown, fun steps => chain_grown grown⟩, ?_⟩
  intro aliases mapping root filter compiled
  exact compile_grown grown

/-- A catalog of orders. -/
def orders : Catalog := .ofList [("Order", ⟨["sum"], [⟨"ware", "Ware", .manyToOne⟩]⟩), ("Ware", ⟨["size"], []⟩)]

/-- More is known of orders, also another association with the name of an old one. -/
def moreOrders : Catalog := .ofList [
  ("Order", ⟨["date", "sum"], [⟨"ware", "Ware", .manyToOne⟩, ⟨"ware", "Order", .manyToMany⟩]⟩),
  ("Tag", ⟨["text"], []⟩), ("Ware", ⟨["size", "sum"], [⟨"orders", "Order", .oneToMany⟩]⟩)]

theorem growth_conservative_orders : orders.GrowsTo moreOrders ∧
    ∃ compiled, compiled.statement.joins = [⟨"ware", "ware", ⟨"ware", "id"⟩, ⟨"order", "ware_id"⟩⟩] ∧
      (Compiler.mk moreOrders .empty .empty).compile "Order"
        (.single ⟨"ware.size", .gt, .int 1, "ware.size > 1"⟩) = .ok compiled := by
  have grown : orders.GrowsTo moreOrders := by decide +kernel
  have shown : ((Compiler.mk orders .empty .empty).compile "Order"
      (.single ⟨"ware.size", .gt, .int 1, "ware.size > 1"⟩)).toOption.map (·.statement.joins) =
      some [⟨"ware", "ware", ⟨"ware", "id"⟩, ⟨"order", "ware_id"⟩⟩] := by decide +kernel
  obtain ⟨compiled, ok, joins⟩ := exists_ok_of_map_toOption shown
  exact ⟨grown, compiled, joins, (growth_conservative grown).2 _ _ _ _ _ ok⟩

end FilterQuery.Compiler
