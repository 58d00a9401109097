import FilterQuery.Config.Load
import FilterQuery.Proofs.Json.Records

/-!
Configurations loaded from the texts that spell them. Main statement: a configuration is loaded from the
text that it is written out as, and from any text in which keys stand in another order, keys with the usual
values are left out, or records have further keys (`load_toJson`).
-/
namespace FilterQuery

open Decimal Json

theorem ConfigFile.ofBytes_toUTF8 (text : String) : ofBytes text.toUTF8 = .text text := by
  have read : String.fromUTF8? text.toUTF8 = some text := dif_pos text.isValidUTF8
  rw [ofBytes, read]

@[simp] theorem AssociationKind.ofName?_name (kind : AssociationKind) :
    ofName? kind.name = some kind := by
  cases kind <;> rfl

section Spellings

/-- The number of names that are listed, or null for all of them. -/
def limitJson : Option Nat → Json
  | none => .null
  | some n => .number (.ofInt n)

def ListPolicy.spelling (p : ListPolicy) : List FieldSpelling := [
  ⟨"max_listed", p.limit = standard.limit, (· = limitJson p.limit)⟩,
  ⟨"ellipsis", p.ellipsis = standard.ellipsis, (· = .string p.ellipsis)⟩]

def ListPolicy.Spells (p : ListPolicy) (j : Json) : Prop :=
  ∃ members, j = .object members ∧ SpellsRecord p.spelling members

/-- No part of an association may be left out. -/
def Association.spelling (a : Association) : List FieldSpelling := [
  ⟨"name", False, (· = .string a.name)⟩, ⟨"target", False, (· = .string a.target)⟩,
  ⟨"kind", False, (· = .string a.kind.name)⟩]

def Association.Spells (a : Association) (j : Json) : Prop :=
  ∃ members, j = .object members ∧ SpellsRecord a.spelling members

def Entity.spelling (e : Entity) : List FieldSpelling := [
  ⟨"fields", e.fields = [], SpellsList (fun name j => j = .string name) e.fields⟩,
  ⟨"associations", e.associations = [], SpellsList Association.Spells e.associations⟩]

def Entity.Spells (e : Entity) (j : Json) : Prop :=
  ∃ members, j = .object members ∧ SpellsRecord e.spelling members

def Config.spelling (c : Config) : List FieldSpelling := [
  ⟨"format", c.format = .standard, c.format.Spells⟩,
  ⟨"table_mapping", c.mapping = .empty, SpellsTable (fun table j => j = .string table) c.mapping⟩,
  ⟨"entities", c.entities = .empty, SpellsTable Entity.Spells c.entities⟩]

/-- The value spells the configuration. In each record keys may stand in any order, those with the usual
value may be left out, and others may be added; in each table the keys may stand in any order. -/
def Config.Spells (c : Config) (j : Json) : Prop :=
  ∃ members, j = .object members ∧ SpellsRecord c.spelling members

end Spellings

section Reading

theorem text_of_spells (s : String) : ∀ j, j = Json.string s → j.draftOf.text = .ok s := by
  rintro _ rfl
  exact text_quotedOf s

theorem limit_of_spells {limit : Option Nat} (fits : ∀ n, limit = some n → n < UInt64.size) :
    ∀ j, j = limitJson limit → j.draftOf.limit = .ok limit := by
  rintro _ rfl
  cases limit with
  | none => rfl
  | some n =>
    have value : (Literal.ofInt n).significand = n := by simp [Literal.significand, Literal.ofInt]
    have plain : (Literal.ofInt n).negative = false ∧ (Literal.ofInt n).fraction = none ∧
        (Literal.ofInt n).exponent = none := by
      simp [Literal.ofInt]
    simp [limitJson, draftOf, Draft.limit, value, fits n rfl, plain]

theorem kind_of_spells (kind : AssociationKind) : ∀ j, j = Json.string kind.name →
    j.draftOf.oneOf AssociationKind.ofName? = .ok kind := by
  rintro _ rfl
  exact oneOf_quotedOf kind.ofName?_name

theorem follows_optionalField {σ α : Type} {state : List String → σ} {key : String} {optional : Prop}
    {spells : Json → Prop} {get : σ → Option α} {set : σ → α → σ} {item : Draft → Except Failure α}
    {value : α} (reads : ∀ j, spells j → item j.draftOf = .ok value)
    (gets : ∀ seen, get (state seen) = known seen key value)
    (sets : ∀ seen, set (state seen) value = state (key :: seen)) :
    Follows state (optionalField key get set item) ⟨key, optional, spells⟩ where
  name_eq := rfl
  isRead seen := by simp [optionalField, gets]
  read seen j spelled := by simp [optionalField, reads j spelled, sets]

/-- A list policy of which the parts under the keys that have been seen are read. -/
def ListPolicy.draft (p : ListPolicy) (seen : List String) : ListPolicyDraft :=
  ⟨known seen "max_listed" p.limit, known seen "ellipsis" p.ellipsis⟩

theorem ListPolicy.read_of_spells {p : ListPolicy} (fits : ∀ n, p.limit = some n → n < UInt64.size)
    {j : Json} (spells : p.Spells j) : read j.draftOf = .ok p := by
  obtain ⟨members, rfl, record⟩ := spells
  refine bind_eq_ok_iff.mpr ⟨_, record_eq_of_spells p.draft ⟨
    .cons (follows_optionalField (limit_of_spells fits) (fun _ => rfl) (by simp [draft])) <|
    .cons (follows_optionalField (text_of_spells p.ellipsis) (fun _ => rfl) (by simp [draft])) .nil, ?_⟩
    record, ?_⟩
  · intro key seen other
    simp_all [spelling, draft]
  · have limit := getD_known (record.key_mem (List.mem_cons_self))
    have ellipsis := getD_known (record.key_mem (List.mem_cons_of_mem _ List.mem_cons_self))
    simp only [draft, limit, ellipsis]

def Association.draft (a : Association) (seen : List String) : AssociationDraft :=
  ⟨known seen "name" a.name, known seen "target" a.target, known seen "kind" a.kind⟩

theorem Association.read_of_spells (a : Association) (j : Json) (spells : a.Spells j) :
    read j.draftOf = .ok a := by
  obtain ⟨members, rfl, record⟩ := spells
  refine bind_eq_ok_iff.mpr ⟨_, record_eq_of_spells a.draft ⟨
    .cons (follows_optionalField (text_of_spells a.name) (fun _ => rfl) (by simp [draft])) <|
    .cons (follows_optionalField (text_of_spells a.target) (fun _ => rfl) (by simp [draft])) <|
    .cons (follows_optionalField (kind_of_spells a.kind) (fun _ => rfl) (by simp [draft])) .nil, ?_⟩
    record, ?_⟩
  · intro key seen other
    simp_all [spelling, draft]
  · have needed : ∀ field ∈ a.spelling, ¬field.optional := by simp [spelling]
    have each : ∀ field ∈ a.spelling, field.key ∈ (members.map (·.1)).reverse :=
      fun field inFields => (record.key_mem inFields).resolve_right (needed field inFields)
    simp only [spelling, List.forall_mem_cons] at each
    simp [draft, known_of_mem, each, required]

def Entity.draft (e : Entity) (seen : List String) : EntityDraft :=
  ⟨known seen "fields" e.fields, known seen "associations" e.associations⟩

theorem Entity.read_of_spells (e : Entity) (j : Json) (spells : e.Spells j) : read j.draftOf = .ok e := by
  obtain ⟨members, rfl, record⟩ := spells
  refine bind_eq_ok_iff.mpr ⟨_, record_eq_of_spells e.draft ⟨
    .cons (follows_optionalField (fun _ => list_of_spells text_of_spells) (fun _ => rfl)
      (by simp [draft])) <|
    .cons (follows_optionalField (fun _ => list_of_spells Association.read_of_spells) (fun _ => rfl)
      (by simp [draft])) .nil, ?_⟩ record, ?_⟩
  · intro key seen other
    simp_all [spelling, draft]
  · have fields := getD_known (record.key_mem (List.mem_cons_self))
    have associations := getD_known (record.key_mem (List.mem_cons_of_mem _ List.mem_cons_self))
    simp only [draft, fields, associations]

def Config.draft (c : Config) (seen : List String) : ConfigDraft :=
  ⟨known seen "format" c.format, known seen "table_mapping" c.mapping, known seen "entities" c.entities⟩

theorem Config.read_of_spells {c : Config} (fits : ∀ n, c.format.limit = some n → n < UInt64.size)
    {j : Json} (spells : c.Spells j) : read j.draftOf = .ok c := by
  obtain ⟨members, rfl, record⟩ := spells
  refine bind_eq_ok_iff.mpr ⟨_, record_eq_of_spells c.draft ⟨
    .cons (follows_optionalField (fun _ => ListPolicy.read_of_spells fits) (fun _ => rfl)
      (by simp [draft])) <|
    .cons (follows_optionalField (fun _ => table_of_spells text_of_spells) (fun _ => rfl)
      (by simp [draft])) <|
    .cons (follows_optionalField (fun _ => table_of_spells Entity.read_of_spells) (fun _ => rfl)
      (by simp [draft])) .nil, ?_⟩ record, ?_⟩
  · intro key seen other
    simp_all [spelling, draft]
  · have format := getD_known (record.key_mem (List.mem_cons_self))
    have mapping := getD_known (record.key_mem (List.mem_cons_of_mem _ List.mem_cons_self))
    have entities := getD_known
      (record.key_mem (List.mem_cons_of_mem _ (List.mem_cons_of_mem _ List.mem_cons_self)))
    simp only [draft, format, mapping, entities]

end Reading

section Writing

theorem strict_limitJson (limit : Option Nat) : (limitJson limit).Strict := by
  cases limit with
  | none => trivial
  | some n => exact Literal.strict_ofInt n

theorem strict_string (s : String) : ∀ j, j = Json.string s → j.Strict := by
  rintro _ rfl
  trivial

theorem ListPolicy.strict_of_spells (p : ListPolicy) (j : Json) (spells : p.Spells j) : j.Strict := by
  obtain ⟨members, rfl, record⟩ := spells
  refine record.strict_object ?_
  simp only [spelling, List.forall_mem_cons, List.not_mem_nil, false_implies, implies_true, and_true]
  exact ⟨fun _ same => same ▸ strict_limitJson p.limit, strict_string p.ellipsis⟩

theorem Association.strict_of_spells (a : Association) (j : Json) (spells : a.Spells j) : j.Strict := by
  obtain ⟨members, rfl, record⟩ := spells
  refine record.strict_object ?_
  simp only [spelling, List.forall_mem_cons, List.not_mem_nil, false_implies, implies_true, and_true]
  exact ⟨strict_string _, strict_string _, strict_string _⟩

theorem Entity.strict_of_spells (e : Entity) (j : Json) (spells : e.Spells j) : j.Strict := by
  obtain ⟨members, rfl, record⟩ := spells
  refine record.strict_object ?_
  simp only [spelling, List.forall_mem_cons, List.not_mem_nil, false_implies, implies_true, and_true]
  exact ⟨fun _ => SpellsList.strict strict_string, fun _ => SpellsList.strict Association.strict_of_spells⟩

theorem Config.strict_of_spells (c : Config) (j : Json) (spells : c.Spells j) : j.Strict := by
  obtain ⟨members, rfl, record⟩ := spells
  refine record.strict_object ?_
  simp only [spelling, List.forall_mem_cons, List.not_mem_nil, false_implies, implies_true, and_true]
  exact ⟨c.format.strict_of_spells, fun _ => SpellsTable.strict strict_string,
    fun _ => SpellsTable.strict Entity.strict_of_spells⟩

theorem ListPolicy.spells_toJson (p : ListPolicy) : p.Spells p.toJson := by
  refine ⟨_, rfl, .of_keys rfl (by simp [spelling]) ?_⟩
  obtain ⟨limit, ellipsis⟩ := p
  cases limit <;> simp [spelling, limitJson]

theorem Association.spells_toJson (a : Association) : a.Spells a.toJson :=
  ⟨_, rfl, .of_keys rfl (by simp [spelling]) (by simp [spelling])⟩

theorem Entity.spells_toJson (e : Entity) : e.Spells e.toJson := by
  have fields := spellsList_map (fun name j => j = Json.string name) (fun _ => rfl) e.fields
  have associations := spellsList_map Association.Spells Association.spells_toJson e.associations
  exact ⟨_, rfl, .of_keys rfl (by simp [spelling]) (by simp [spelling, fields, associations])⟩

/-- A configuration is spelled where it is written out with all its keys. -/
theorem Config.spells_toJson (c : Config) : c.Spells c.toJson := by
  have mapping := spellsTable_map (fun table j => j = Json.string table) (fun _ => rfl) c.mapping
  have entities := spellsTable_map Entity.Spells Entity.spells_toJson c.entities
  have format := c.format.spells_toJson
  exact ⟨_, rfl, .of_keys rfl (by simp [spelling]) (by simp [spelling, format, mapping, entities])⟩

end Writing

namespace Config

/-- What a text says does not depend on its layout. -/
theorem load_of_spells {c : Config} (fits : ∀ n, c.format.limit = some n → n < UInt64.size) {j : Json}
    (spells : c.Spells j) (path : String) :
    load path (.ofBytes j.compact.toUTF8) = .ok c ∧ load path (.ofBytes j.pretty.toUTF8) = .ok c := by
  have strict := c.strict_of_spells j spells
  have value := read_of_spells fits spells
  simp only [ConfigFile.ofBytes_toUTF8, load, ofText, readText_compact read strict,
    readText_pretty read strict, value, and_self]

/-- A configuration is loaded from the text that it is written out as, in either layout. It is loaded as well
from any text that spells it: with the keys of objects in another order, without keys of the usual values, and
with further keys in the objects that are no tables. -/
theorem load_toJson (c : Config) (fits : ∀ n, c.format.limit = some n → n < UInt64.size) (path : String) :
    load path (.ofBytes c.toJson.compact.toUTF8) = .ok c ∧
      load path (.ofBytes c.toJson.pretty.toUTF8) = .ok c ∧
      ∀ j, c.Spells j → load path (.ofBytes j.compact.toUTF8) = .ok c ∧
        load path (.ofBytes j.pretty.toUTF8) = .ok c := by
  obtain ⟨compact, pretty⟩ := load_of_spells fits c.spells_toJson path
  exact ⟨compact, pretty, fun j spells => load_of_spells fits spells path⟩

/-- An entity that leads to itself, and one with nothing declared on it. -/
def staff : Config where
  format := .unlimited
  mapping := .ofList [("App\\Staff", "staff\t\"é\"")]
  entities := .ofList [("App\\Staff", ⟨["id"], [⟨"chief", "App\\Staff", .manyToOne⟩]⟩), ("Guest", .empty)]

def chiefJson : Json :=
  .object [("kind", .string "many_to_one"), ("since", .array [.null, .object []]),
    ("target", .string "App\\Staff"), ("name", .string "chief")]

/-- The configuration in another order, without the usual values and with keys that are not known. -/
def staffJson : Json :=
  .object [
    ("entities", .object [
      ("Guest", .object [("kind", .null)]),
      ("App\\Staff", .object [("associations", .array [chiefJson]), ("fields", .array [.string "id"])])]),
    ("version", .number (.ofInt 2)),
    ("format", .object [("max_listed", .null)]),
    ("table_mapping", .object [("App\\Staff", .string "staff\t\"é\"")])]

theorem spells_staffJson : staff.Spells staffJson := by
  have chief : Association.Spells ⟨"chief", "App\\Staff", .manyToOne⟩ chiefJson := by
    refine ⟨_, rfl, ?_⟩
    constructor <;> simp [Association.spelling, AssociationKind.name, Strict, StrictItems, StrictMembers]
  have person : Entity.Spells ⟨["id"], [⟨"chief", "App\\Staff", .manyToOne⟩]⟩ (.object [
      ("associations", .array [chiefJson]), ("fields", .array [.string "id"])]) := by
    refine ⟨_, rfl, ?_⟩
    constructor <;> simp [Entity.spelling, SpellsList, chief]
  have guest : Entity.empty.Spells (.object [("kind", .null)]) := by
    refine ⟨_, rfl, ?_⟩
    constructor <;> simp [Entity.spelling, Entity.empty, Strict]
  have entities : SpellsTable Entity.Spells staff.entities (.object [("Guest", .object [("kind", .null)]),
      ("App\\Staff", .object [("associations", .array [chiefJson]), ("fields", .array [.string "id"])])]) :=
    ⟨_, rfl, _, .swap _ _ _, .cons ⟨rfl, guest⟩ (.cons ⟨rfl, person⟩ .nil)⟩
  have mapping : SpellsTable (fun table j => j = Json.string table) staff.mapping
      (.object [("App\\Staff", .string "staff\t\"é\"")]) :=
    ⟨_, rfl, _, .refl _, .cons ⟨rfl, rfl⟩ .nil⟩
  have format : staff.format.Spells (.object [("max_listed", .null)]) := by
    refine ⟨_, rfl, ?_⟩
    constructor <;> simp [ListPolicy.spelling, staff, ListPolicy.unlimited, limitJson]
  refine ⟨_, rfl, ?_⟩
  constructor <;> simp [spelling, entities, mapping, format, Strict, Literal.strict_ofInt]

theorem load_toJson_staff :
    (∀ n, staff.format.limit = some n → n < UInt64.size) ∧ staff.Spells staffJson ∧
      load "staff.json" (.ofBytes staff.toJson.pretty.toUTF8) = .ok staff ∧
      load "staff.json" (.ofBytes staffJson.compact.toUTF8) = .ok staff := by
  have fits : ∀ n, staff.format.limit = some n → n < UInt64.size := by simp [staff, ListPolicy.unlimited]
  obtain ⟨-, pretty, others⟩ := load_toJson staff fits "staff.json"
  exact ⟨fits, spells_staffJson, pretty, (others staffJson spells_staffJson).1⟩

end Config

end FilterQuery
