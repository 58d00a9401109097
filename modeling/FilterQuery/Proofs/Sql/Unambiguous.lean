import FilterQuery.Proofs.Sql.ReadBack

/-!
Compiled filters read back from the text of their statements. The terms that conditions on finite values
are compiled to can be read (`termOf_readable`), and so can the whole statement be.
-/
namespace FilterQuery

open Decimal Sql

namespace Value

mutual

/-- Whether all numbers in a value are finite. -/
def isFinite : Value → Bool
  | float x => x.isFinite
  | list items => areFinite items
  | null | bool _ | int _ | text _ => true

def areFinite : List Value → Bool
  | [] => true
  | item :: items => isFinite item && areFinite items

end

theorem isFinite_of_mem {items : List Value} {item : Value} (finite : areFinite items)
    (member : item ∈ items) : item.isFinite := by
  induction items with
  | nil => cases member
  | cons first items ih =>
    simp only [areFinite, Bool.and_eq_true] at finite
    rcases List.mem_cons.mp member with here | later
    · rw [here]
      exact finite.1
    · exact ih finite.2 later

end Value

namespace Sql

theorem literalOf_readable {value : Value} (finite : value.isFinite) : (literalOf value).Readable := by
  cases value with
  | int i => exact display_int_numeral i
  | float x =>
    rw [Value.isFinite] at finite
    exact display_float_numeral finite
  | null | bool _ | text _ | list _ => trivial

theorem literalsOf_readable {value : Value} (finite : value.isFinite) :
    ∀ l ∈ literalsOf value, l.Readable := by
  intro l member
  cases value with
  | list items =>
    rw [Value.isFinite] at finite
    obtain ⟨item, inside, rfl⟩ := List.mem_map.mp member
    exact literalOf_readable (Value.isFinite_of_mem finite inside)
  | _ =>
    obtain rfl := List.mem_singleton.mp member
    exact literalOf_readable finite

theorem isInTerm_readable {column : Column} {negated : Bool} {literals : List Literal}
    (readable : ∀ l ∈ literals, l.Readable) : (isInTerm column negated literals).Readable := by
  cases literals with
  | nil => trivial
  | cons first others =>
    exact ⟨readable first List.mem_cons_self, fun l member => readable l (List.mem_cons_of_mem _ member)⟩

/-- The term of a condition on a finite value can be read back. -/
theorem termOf_readable {column : Column} {operator : Operator} {value : Value}
    (finite : value.isFinite) : (termOf column operator value).Readable := by
  have scalar := literalOf_readable finite
  have items := literalsOf_readable finite
  cases operator with
  | eq | neq =>
    rw [termOf]
    split
    · trivial
    · exact scalar
  | gt | gte | lt | lte => exact scalar
  | inList | notInList => exact isInTerm_readable items
  | like | isNull | isNotNull => trivial

end Sql

namespace Compiler

/-- The text of a compiled filter tells the root table and its name, the joins, and the term of each
condition in the order of the conditions, whatever characters names and texts are made of. -/
theorem readStatement_compile {c : Compiler} {root : String} {filter : Filter} {compiled : Compiled}
    (ok : c.compile root filter = .ok compiled)
    (finite : ∀ condition ∈ filter.conditions, condition.value.isFinite) :
    readStatement compiled.statement.render = some {
      table := tableOf c.mapping root
      name := c.rootName root
      joins := compiled.statement.joins
      conditions := .of (filter.connective.getD .and) (filter.conditions.map (c.termAt root)) } := by
  obtain ⟨done, _, rfl, progressed⟩ := compile_progressed ok
  have readable : ∀ t ∈ (c.finish root filter done).statement.terms, t.Readable := by
    intro t member
    rw [finish, progressed.terms] at member
    obtain ⟨condition, inside, rfl⟩ := List.mem_map.mp member
    exact termOf_readable (finite condition inside)
  rw [readStatement_render readable, Statement.reading]
  simp only [finish, progressed.terms]

/-- A compiler whose names are full of quotes and key words. -/
def quoting : Compiler where
  catalog := .ofList [
    ("Shop\\Order", ⟨["no\"te", "sum"], [⟨"OR'1", "Ware", .manyToOne⟩]⟩), ("Ware", ⟨["x\\y"], []⟩)]
  aliases := ⟨.ofList [("w", "OR'1")], some "AS"⟩
  mapping := .ofList [("Shop\\Order", "a\" WHERE TRUE --")]

/-- A filter whose texts would end their quotations, if they could. -/
def quoted : Filter := .compound .or [
  ⟨"AS.no\"te", .eq, .text "' OR 1 = 1; --\n\\", ""⟩,
  ⟨"sum", .inList, .list [.int (-1), .float ⟨true, 0x3FE0000000000000, by decide⟩, .null,
    .text "x', 'y"], ""⟩,
  ⟨"w.x\\y", .like, .text "a\\'%", ""⟩,
  ⟨"sum", .notInList, .list [], ""⟩]

theorem readStatement_compile_quoted :
    ∃ compiled, quoting.compile "Shop\\Order" quoted = .ok compiled ∧
      readStatement compiled.statement.render = some {
        table := "a\" WHERE TRUE --"
        name := "AS"
        joins := [⟨"ware", "OR'1", ⟨"OR'1", "id"⟩, ⟨"AS", "OR'1_id"⟩⟩]
        conditions := .terms (.compare ⟨"AS", "no\"te"⟩ .eq (.text "' OR 1 = 1; --\n\\")) [
          (.or, .isIn ⟨"AS", "sum"⟩ false (.number "-1") [.number "-0.5", .null, .text "x', 'y"]),
          (.or, .like ⟨"OR'1", "x\\y"⟩ "a\\'%"),
          (.or, .constant true)] } := by
  have shown : (quoting.compile "Shop\\Order" quoted).toOption.map (·.statement.joins) =
      some [⟨"ware", "OR'1", ⟨"OR'1", "id"⟩, ⟨"AS", "OR'1_id"⟩⟩] := by decide +kernel
  obtain ⟨compiled, ok, joins⟩ := exists_ok_of_map_toOption shown
  refine ⟨compiled, ok, ?_⟩
  rw [readStatement_compile ok (by decide), joins]
  decide +kernel

end Compiler

end FilterQuery
