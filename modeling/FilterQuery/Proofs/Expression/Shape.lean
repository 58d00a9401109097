import FilterQuery.Proofs.Expression.Display
import FilterQuery.Proofs.Expression.Separator

/-!
What is so of everything that is read. Main statements: a condition that is read is kept with the text
that it is read from again (`Condition.shaped_of_read`), and a filter that is read has several
conditions, of this shape, exactly if it is compound, and else one (`Filter.shaped_of_parse`).
-/
namespace FilterQuery

open Text Expression

/-- There are no blanks around the text. -/
def Stripped (s : String) : Prop :=
  (∀ c ∈ s.toList.head?, isBlank c = false) ∧ ∀ c ∈ s.toList.getLast?, isBlank c = false

/-- The shape of a condition that is read: a null check has no value, lists are not nested, numbers are
finite, there are no blanks around the field and the text, and the text is read as the condition. -/
structure Condition.Shaped (c : Condition) : Prop where
  noValue : c.operator.isNullCheck → c.value = .null
  flat : ∀ items, c.value = .list items → ∀ inner, .list inner ∉ items
  finite : ∀ x ∈ c.value.floats, x.isFinite
  field : Stripped c.field
  raw : Stripped c.raw
  reads : Condition.parse c.raw = .ok c

/-- The shape of a filter that is read: a compound has a connective and several conditions, and any other
filter has one condition and no connective. -/
structure Filter.Shaped (f : Filter) : Prop where
  connective : f.isCompound ↔ f.connective.isSome
  several : f.isCompound ↔ 2 ≤ f.conditions.length
  single : ¬f.isCompound → f.conditions.length = 1
  conditions : ∀ c ∈ f.conditions, c.Shaped

theorem stripped_trim (cs : List Char) : Stripped (String.ofList (trim cs)) := by
  rw [Stripped, String.toList_ofList]
  exact ⟨head?_trim cs, getLast?_trim cs⟩

theorem Value.Readable.flat {items : List Value} (readable : (Value.list items).Readable)
    (inner : List Value) : .list inner ∉ items :=
  fun member => (readable _ member).1

theorem Condition.shaped_of_read {cs : List Char} {c : Condition} (read : Condition.ofChars cs = .ok c) :
    c.Shaped := by
  obtain ⟨m, first, shape⟩ := Condition.ofChars_eq_ok_iff.mp read
  have readable : c.value.Readable := by
    rw [shape]
    dsimp only
    split
    · trivial
    · exact (Value.ofToken_readable m.rest).1
  have raw : c.raw = String.ofList (trim cs) := by rw [shape]
  refine ⟨?_, ?_, fun x => readable.isFinite, ?_, ?_, ?_⟩
  · intro check
    rw [shape] at check ⊢
    exact if_pos check
  · intro items same
    rw [same] at readable
    exact readable.flat
  · rw [shape]
    exact stripped_trim _
  · rw [raw]
    exact stripped_trim _
  · rw [Condition.parse, raw, String.toList_ofList, Condition.ofChars_eq_ok_iff, trim_trim]
    exact ⟨m, first, shape⟩

/-- Every filter that is read has the shape of one. -/
theorem Filter.shaped_of_parse {e : String} {f : Filter} (ok : Filter.parse e = .ok f) : f.Shaped := by
  rcases ofChars_cases ok with ⟨connective, conditions, seen, read, rfl⟩ | ⟨c, _, read, rfl⟩
  · have several := several_of_mapM_split seen read
    refine ⟨by simp [Filter.compound], by simp [Filter.compound, several], by simp [Filter.compound], ?_⟩
    intro c member
    obtain ⟨piece, _, ok⟩ := exists_of_mem_of_mapM read member
    exact Condition.shaped_of_read ok
  · refine ⟨by simp [Filter.single], by simp [Filter.single], fun _ => rfl, ?_⟩
    intro other member
    obtain rfl := List.mem_singleton.mp member
    exact Condition.shaped_of_read read

/-- The value behind a null check is not read, and that of a list is read only one level deep. -/
theorem Filter.shaped_of_parse_nested : ∃ f,
    Filter.parse " a in ((1), 2.50 ,null)  oR b IS NULL 'x' " = .ok f ∧ f.Shaped ∧
      f = .compound .or [
        ⟨"a", .inList, .list [.text "(1)", .float (.ofBits 0x4004000000000000), .null],
          "a in ((1), 2.50 ,null)"⟩,
        ⟨"b", .isNull, .null, "b IS NULL 'x'"⟩] := by
  have read : Filter.parse " a in ((1), 2.50 ,null)  oR b IS NULL 'x' " = .ok (.compound .or [
      ⟨"a", .inList, .list [.text "(1)", .float (.ofBits 0x4004000000000000), .null],
        "a in ((1), 2.50 ,null)"⟩,
      ⟨"b", .isNull, .null, "b IS NULL 'x'"⟩]) := eq_ok_of_toOption (by decide +kernel)
  exact ⟨_, read, Filter.shaped_of_parse read, rfl⟩

end FilterQuery
