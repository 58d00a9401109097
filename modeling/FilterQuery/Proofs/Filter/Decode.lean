import FilterQuery.Config.Read
import FilterQuery.Filter.Json
import FilterQuery.Proofs.Json.Document
import FilterQuery.Proofs.Value.Display

/-!
Filters read back from the JSON that they are written out as. Main statement: a filter whose floating
point numbers are finite comes back as it was (`Filter.readText_toJson`).
-/
namespace FilterQuery

open Decimal Json

namespace Value

/-- The value that a number stands for: a floating point number if it has a point or an exponent. -/
def ofNumber (l : Literal) : Except Failure Value :=
  if l.hasPoint then .ok (float (.ofDecimal l.negative l.significand l.power))
  else if fits (signed l.negative l.significand) then .ok (int (.ofInt (signed l.negative l.significand)))
  else .error .mismatched

mutual

/-- The value that is written without a word on its kind. -/
def decode : Draft → Except Failure Value
  | .null => .ok null
  | .bool b => .ok (bool b)
  | .number l => ofNumber l
  | .string q => q.text.map text
  | .array items closing => do
    let values ← decodeItems items
    closing.check
    .ok (list values)
  | d => .error d.mismatch

def decodeItems : List Draft → Except Failure (List Value)
  | [] => .ok []
  | item :: items => do
    let value ← decode item
    let values ← decodeItems items
    .ok (value :: values)

end

end Value

def Operator.ofName? (name : String) : Option Operator :=
  [eq, neq, gt, gte, lt, lte, like, inList, notInList, isNull, isNotNull].find? (·.name = name)

def Connective.ofKeyword? (keyword : String) : Option Connective := all.find? (·.keyword = keyword)

structure ConditionDraft where
  field : Option String
  operator : Option Operator
  value : Option Value
  raw : Option String

def Condition.decode (draft : Draft) : Except Failure Condition := do
  let parts ← draft.record [
    optionalField "field" ConditionDraft.field ({ · with field := some · }) Draft.text,
    optionalField "operator" ConditionDraft.operator ({ · with operator := some · })
      (Draft.oneOf Operator.ofName?),
    optionalField "value" ConditionDraft.value ({ · with value := some · }) Value.decode,
    optionalField "raw" ConditionDraft.raw ({ · with raw := some · }) Draft.text]
    ⟨none, none, none, none⟩
  .ok ⟨← required parts.field, ← required parts.operator, ← required parts.value, ← required parts.raw⟩

structure FilterDraft where
  isCompound : Option Bool
  connective : Option (Option Connective)
  conditions : Option (List Condition)

namespace Filter

def decodeFlag : Draft → Except Failure Bool
  | .bool b => .ok b
  | d => .error d.mismatch

def decodeConnective : Draft → Except Failure (Option Connective)
  | .null => .ok none
  | d => (d.oneOf Connective.ofKeyword?).map some

/-- The filter that is written out as a value. -/
def decode (draft : Draft) : Except Failure Filter := do
  let parts ← draft.record [
    optionalField "is_compound" FilterDraft.isCompound ({ · with isCompound := some · }) decodeFlag,
    optionalField "logical_operator" FilterDraft.connective ({ · with connective := some · })
      decodeConnective,
    optionalField "conditions" FilterDraft.conditions ({ · with conditions := some · })
      (Draft.list Condition.decode)]
    ⟨none, none, none⟩
  .ok ⟨← required parts.isCompound, ← required parts.connective, ← required parts.conditions⟩

end Filter

theorem Value.ofNumber_ofInt (i : Int64) : ofNumber (.ofInt i.toInt) = .ok (int i) := by
  have written : signed (Literal.ofInt i.toInt).negative (Literal.ofInt i.toInt).significand = i.toInt := by
    simp only [signed, Literal.ofInt, Literal.significand, Option.getD_none, List.append_nil,
      valueOf_digitsOf, decide_eq_true_eq]
    split <;> omega
  have noPoint : ¬(Literal.ofInt i.toInt).hasPoint := by simp [Literal.hasPoint, Literal.ofInt]
  rw [ofNumber, if_neg noPoint, written, if_pos (fits_toInt i), Int64.ofInt_toInt]

theorem Value.ofNumber_literal {x : Binary64} (finite : x.isFinite) : ofNumber x.literal = .ok (float x) := by
  rw [ofNumber, if_pos x.literal_hasPoint, Binary64.ofDecimal_literal finite]

namespace Value

mutual

theorem strict_toJson (v : Value) : v.toJson.Strict := by
  cases v with
  | int i => exact Literal.strict_ofInt i.toInt
  | float x =>
    rw [toJson, Binary64.toJson]
    split
    · next finite => exact Binary64.strict_literal finite
    · trivial
  | list items => exact strict_itemsToJson items
  | null | bool b | text s => trivial

theorem strict_itemsToJson (items : List Value) : StrictItems (itemsToJson items) := by
  cases items with
  | nil => trivial
  | cons item items => exact ⟨strict_toJson item, strict_itemsToJson items⟩

end

mutual

/-- A value comes back from the text it is written out as. -/
theorem decode_toJson {v : Value} (finite : ∀ x ∈ v.floats, x.isFinite) :
    decode v.toJson.draftOf = .ok v := by
  cases v with
  | null => rfl
  | bool b => rfl
  | int i => exact ofNumber_ofInt i
  | float x =>
    have number : x.isFinite := finite x (by simp [floats])
    rw [toJson, Binary64.toJson, if_pos number]
    exact ofNumber_literal number
  | text s =>
    rw [toJson, draftOf, decode, text_quotedOf]
    rfl
  | list items =>
    rw [toJson, draftOf, decode, decodeItems_toJson finite]
    rfl

theorem decodeItems_toJson {items : List Value} (finite : ∀ x ∈ floatsOf items, x.isFinite) :
    decodeItems (itemDrafts (itemsToJson items)) = .ok items := by
  cases items with
  | nil => rfl
  | cons item items =>
    simp only [floatsOf, List.mem_append] at finite
    rw [itemsToJson, itemDrafts, decodeItems, decode_toJson fun x member => finite x (.inl member),
      decodeItems_toJson fun x member => finite x (.inr member)]
    rfl

end

end Value

@[simp] theorem Operator.ofName?_name (o : Operator) : ofName? o.name = some o := by cases o <;> rfl

@[simp] theorem Connective.ofKeyword?_keyword (c : Connective) : ofKeyword? c.keyword = some c := by
  cases c <;> rfl

theorem Condition.decode_toJson {c : Condition} (finite : ∀ x ∈ c.value.floats, x.isFinite) :
    decode c.toJson.draftOf = .ok c := by
  have value := Value.decode_toJson finite
  have operator := oneOf_quotedOf (Operator.ofName?_name c.operator)
  rw [decode, toJson, record_draftOf]
  simp [memberDrafts, draftOf, Draft.readMember, Draft.keyText, optionalField, value, operator, Draft.text,
    required]

namespace Filter

theorem strict_toJson (f : Filter) : f.toJson.Strict := by
  have connective : ((f.connective.map fun c => Json.string c.keyword).getD .null).Strict := by
    cases f.connective <;> trivial
  have conditions : StrictItems (f.conditions.map Condition.toJson) := by
    induction f.conditions with
    | nil => trivial
    | cons c conditions ih => exact ⟨⟨trivial, trivial, c.value.strict_toJson, trivial, trivial⟩, ih⟩
  exact ⟨trivial, connective, conditions, trivial⟩

theorem decode_toJson {f : Filter} (finite : ∀ c ∈ f.conditions, ∀ x ∈ c.value.floats, x.isFinite) :
    decode f.toJson.draftOf = .ok f := by
  have connective : decodeConnective
      ((f.connective.map fun c => Json.string c.keyword).getD .null).draftOf = .ok f.connective := by
    cases f.connective with
    | none => rfl
    | some c =>
      have named := oneOf_quotedOf (Connective.ofKeyword?_keyword c)
      rw [Option.map_some, Option.getD_some, draftOf, decodeConnective, named]
      · rfl
      · rintro ⟨⟩
  have conditions : (itemDrafts (f.conditions.map Condition.toJson)).mapM Condition.decode =
      .ok f.conditions := by
    rw [itemDrafts_eq_map, mapM_eq_ok_iff, List.map_map, List.map_map]
    exact List.map_congr_left fun c member => Condition.decode_toJson (finite c member)
  rw [decode, toJson, record_draftOf]
  simp [memberDrafts, draftOf, Draft.readMember, Draft.keyText, optionalField, connective, conditions,
    decodeFlag, Draft.list, Closing.check, required]

/-- A filter whose numbers are finite comes back from its text without blanks, and its text in lines has
the same tokens. -/
theorem readText_toJson (f : Filter) (finite : ∀ c ∈ f.conditions, ∀ x ∈ c.value.floats, x.isFinite) :
    readText decode f.toJson.compact = .ok f ∧
      tokens f.toJson.pretty.toList = tokens f.toJson.compact.toList := by
  have strict := f.strict_toJson
  constructor
  · rw [Json.readText_compact decode strict]
    exact decode_toJson finite
  · rw [tokens_pretty strict, tokens_compact strict]

/-- A filter with values that differ in nothing but their kind or their sign. -/
def lookalikes : Filter := .compound .or [
  ⟨"a\"b", .inList, .list [.float (.zero true), .float (.zero false), .int 0, .text "0.0",
    .float (.ofBits 0x4062C00000000000), .int 150, .text "150"], "\t\x01\\é"⟩,
  ⟨"", .isNotNull, .null, "null"⟩,
  ⟨"c", .neq, .list [.text "null", .null, .list [], .list [.bool true, .text "true"]], ""⟩]

theorem readText_toJson_lookalikes :
    (∀ c ∈ lookalikes.conditions, ∀ x ∈ c.value.floats, x.isFinite) ∧
      readText decode lookalikes.toJson.compact = .ok lookalikes ∧
      tokens lookalikes.toJson.pretty.toList = tokens lookalikes.toJson.compact.toList := by
  have finite : ∀ c ∈ lookalikes.conditions, ∀ x ∈ c.value.floats, x.isFinite := by decide
  exact ⟨finite, readText_toJson lookalikes finite⟩

end Filter

end FilterQuery
