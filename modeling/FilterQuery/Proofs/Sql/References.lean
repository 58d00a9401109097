import FilterQuery.Proofs.Alias.Registries
import FilterQuery.Proofs.Outcome
import FilterQuery.Sql.Compile

/-!
Filters on the same paths, in which the fields are written in different ways. Main statement: they compile to
the same statement on the same paths, or fail with the same fault (`Compiler.compile_concur`).
-/
namespace FilterQuery

open Text Sql

/-- The ways to write a path. What is in front of the first dot of the field is an alias for the start of the
path, or it is the alias of the root, or it is neither. -/
inductive Registry.Writes (r : Registry) : String → String → Prop
  | aliased {head rest path : String} : '.' ∉ head.toList → r.aliases.get? head = some path →
      Writes r (head ++ "." ++ rest) (path ++ "." ++ rest)
  | main {head rest : String} : '.' ∉ head.toList → r.aliases.get? head = none → r.main = some head →
      Writes r (head ++ "." ++ rest) rest
  | plain {path : String} : (∀ head rest, path = head ++ "." ++ rest → '.' ∉ head.toList →
      r.aliases.get? head = none ∧ r.main ≠ some head) → Writes r path path

/-- The fields stand for the same path, each with its registry. -/
def Registry.SamePath (r s : Registry) (field other : String) : Prop :=
  (r.resolve field).path = (s.resolve other).path

namespace Registry

variable {r : Registry} {field path : String}

theorem Writes.resolve (writes : r.Writes field path) : (r.resolve field).path = path := by
  cases writes with
  | aliased dotless known => simp only [resolve_of_split dotless, known]
  | main dotless free isMain => simp only [resolve_of_split dotless, free, if_pos isMain]
  | plain unknown => rw [resolve_of_unknown unknown]

theorem writes_resolve (r : Registry) (field : String) : r.Writes field (r.resolve field).path := by
  by_cases unknown : ∀ head rest, field = head ++ "." ++ rest → '.' ∉ head.toList →
      r.aliases.get? head = none ∧ r.main ≠ some head
  · rw [resolve_of_unknown unknown]
    exact .plain unknown
  · push Not at unknown
    obtain ⟨head, rest, rfl, dotless, captured⟩ := unknown
    rw [resolve_of_split dotless]
    cases known : r.aliases.get? head with
    | some path => exact .aliased dotless known
    | none =>
      have isMain := captured known
      simp only [if_pos isMain]
      exact .main dotless known isMain

/-- Every field is written in one of these ways, and stands for the path that it so writes. -/
theorem writes_iff : r.Writes field path ↔ (r.resolve field).path = path := by
  constructor
  · exact Writes.resolve
  · rintro rfl
    exact r.writes_resolve field

end Registry

/-- Conditions with the same operator and value, on fields that are related. -/
structure Condition.Matches (same : String → String → Prop) (a b : Condition) : Prop where
  field : same a.field b.field
  operator : a.operator = b.operator
  value : a.value = b.value

/-- The same statement and the same paths. How the fields were written does not count. -/
structure Compiled.Alike (a b : Compiled) : Prop where
  statement : a.statement = b.statement
  paths : a.resolved.map (·.path) = b.resolved.map (·.path)

namespace Compiler

variable {catalog : Catalog} {mapping : Table String} {root : String} {r s : Registry} {p q : Progress}
  {a b : Condition} {f g : Filter}

/-- The same hops are joined, and the same terms made, under the same paths. -/
structure Progress.Alike (p q : Progress) : Prop where
  joined : p.joined = q.joined
  terms : p.terms = q.terms
  paths : p.resolved.map (·.path) = q.resolved.map (·.path)

theorem rootName_congr (main : r.main = s.main) (root : String) :
    rootName ⟨catalog, r, mapping⟩ root = rootName ⟨catalog, s, mapping⟩ root := by
  simp only [rootName, main]

theorem column_congr (main : r.main = s.main) (root : String) (joined : List Hop) (path : String) :
    column ⟨catalog, r, mapping⟩ root joined path = column ⟨catalog, s, mapping⟩ root joined path := by
  simp only [column, rootName_congr main]

/-- What one condition adds does not depend on how its field is written. -/
theorem addCondition_concur (main : r.main = s.main) (matched : a.Matches (r.SamePath s) b)
    (alike : p.Alike q) :
    Concur Eq Progress.Alike (addCondition ⟨catalog, r, mapping⟩ root p a)
      (addCondition ⟨catalog, s, mapping⟩ root q b) := by
  have path : (r.resolve a.field).path = (s.resolve b.field).path := matched.field
  simp only [addCondition, path, alike.joined, column_congr main]
  refine (Concur.refl _).bind ?_
  rintro resolved _ rfl
  refine (Concur.refl _).bind ?_
  rintro ⟨joined, column⟩ _ rfl
  refine .ok ⟨rfl, ?_, ?_⟩
  · simp only [alike.terms, matched.operator, matched.value]
  · simp only [List.map_append, alike.paths, List.map_cons, List.map_nil]

theorem compile_concur_of_samePath (main : r.main = s.main) (connective : f.connective = g.connective)
    (matched : List.Forall₂ (Condition.Matches (r.SamePath s)) f.conditions g.conditions) :
    Concur Eq Compiled.Alike (compile ⟨catalog, r, mapping⟩ root f) (compile ⟨catalog, s, mapping⟩ root g) := by
  have start : Progress.Alike ⟨[], [], []⟩ ⟨[], [], []⟩ := ⟨rfl, rfl, rfl⟩
  have step : ∀ p q a b, Progress.Alike p q → Condition.Matches (r.SamePath s) a b →
      Concur Eq Progress.Alike (addCondition ⟨catalog, r, mapping⟩ root p a)
        (addCondition ⟨catalog, s, mapping⟩ root q b) :=
    fun _ _ _ _ alike matched => addCondition_concur main matched alike
  refine (Concur.foldlM step matched start).bind fun done other alike => .ok ⟨?_, alike.paths⟩
  simp only [connective, rootName_congr main, alike.joined, alike.terms]

/-- With the same alias of the root, filters with the same connective whose conditions have the same operators
and values, on fields that stand for the same paths, compile to the same statement on the same paths, or fail
with the same fault. So they do if each field is written in one or another of the ways to write its path. -/
theorem compile_concur (catalog : Catalog) (mapping : Table String) (root : String) {r s : Registry}
    (main : r.main = s.main) {f g : Filter} (connective : f.connective = g.connective) :
    (List.Forall₂ (Condition.Matches (r.SamePath s)) f.conditions g.conditions →
      Concur Eq Compiled.Alike (compile ⟨catalog, r, mapping⟩ root f) (compile ⟨catalog, s, mapping⟩ root g)) ∧
    (List.Forall₂ (Condition.Matches fun field other => ∃ path, r.Writes field path ∧ s.Writes other path)
        f.conditions g.conditions →
      Concur Eq Compiled.Alike (compile ⟨catalog, r, mapping⟩ root f)
        (compile ⟨catalog, s, mapping⟩ root g)) := by
  refine ⟨compile_concur_of_samePath main connective, fun written => ?_⟩
  refine compile_concur_of_samePath main connective (written.imp fun a b matched => ?_)
  obtain ⟨path, first, second⟩ := matched.field
  have same := (Registry.writes_iff.mp first).trans (Registry.writes_iff.mp second).symm
  exact ⟨same, matched.operator, matched.value⟩

/-- Products and their makers in their countries. -/
def goods : Catalog := .ofList [
  ("shop::Product", ⟨["stock"], [⟨"maker", "shop::Maker", .manyToOne⟩]⟩),
  ("shop::Maker", ⟨["name"], [⟨"country", "shop::Country", .manyToOne⟩]⟩),
  ("shop::Country", ⟨["code"], []⟩)]

/-- Two aliases, for the maker and for its country. -/
def shortNames : Registry := ⟨.ofList [("m", "maker"), ("c", "maker.country")], some "p"⟩

def makerName : Registry := ⟨.ofList [("x", "maker")], some "p"⟩

/-- Conditions on a product, with the aliases where there are some. -/
def shortFilter : Filter := .compound .and [
  ⟨"m.name", .like, .text "A%", ""⟩, ⟨"c.code", .isNull, .null, ""⟩, ⟨"p.stock", .gt, .int 1, ""⟩]

def makerFilter : Filter := .compound .and [
  ⟨"maker.name", .like, .text "A%", ""⟩, ⟨"x.country.code", .isNull, .null, ""⟩, ⟨"stock", .gt, .int 1, ""⟩]

theorem compile_concur_goods :
    (compile ⟨goods, shortNames, .empty⟩ "shop::Product" shortFilter).isOk ∧
      Concur Eq Compiled.Alike (compile ⟨goods, shortNames, .empty⟩ "shop::Product" shortFilter)
        (compile ⟨goods, makerName, .empty⟩ "shop::Product" makerFilter) := by
  have writes : ∀ field other path,
      (shortNames.resolve field).path = path ∧ (makerName.resolve other).path = path →
        ∃ path, shortNames.Writes field path ∧ makerName.Writes other path :=
    fun _ _ path same => ⟨path, Registry.writes_iff.mpr same.1, Registry.writes_iff.mpr same.2⟩
  have name := writes "m.name" "maker.name" "maker.name" (by decide +kernel)
  have code := writes "c.code" "x.country.code" "maker.country.code" (by decide +kernel)
  have stock := writes "p.stock" "stock" "stock" (by decide +kernel)
  refine ⟨by decide +kernel, (compile_concur goods .empty "shop::Product" (by rfl) (by rfl)).2 ?_⟩
  exact .cons ⟨name, rfl, rfl⟩ (.cons ⟨code, rfl, rfl⟩ (.cons ⟨stock, rfl, rfl⟩ .nil))

end Compiler

end FilterQuery
