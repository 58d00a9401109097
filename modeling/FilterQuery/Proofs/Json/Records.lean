import FilterQuery.Proofs.Json.Document
import Mathlib.Data.List.Forall2

/-!
Records, tables and lists read back from the values that spell them, in whatever order and with whatever
other keys a record is written. Main statements: the members of a record are read to the same end in any
order (`foldlM_readMember`), and so are those of a table (`table_of_spells`).
-/
namespace FilterQuery

open Json

/-- The value if its name has been seen. -/
def known {α : Type} (seen : List String) (name : String) (value : α) : Option α :=
  if name ∈ seen then some value else none

section Known

variable {α : Type} {seen : List String} {name other : String} {value standard : α}

@[simp] theorem known_nil : known [] name value = none := rfl

@[simp] theorem known_cons :
    known (other :: seen) name value = if other = name then some value else known seen name value := by
  by_cases here : other = name
  · simp [known, here]
  · simp [known, here, Ne.symm here]

@[simp] theorem isSome_known : (known seen name value).isSome = decide (name ∈ seen) := by
  by_cases old : name ∈ seen <;> simp [known, old]

theorem known_of_mem (old : name ∈ seen) : known seen name value = some value := if_pos old

/-- A value that is not seen only if it is the usual one is known in any case. -/
theorem getD_known (usual : name ∈ seen ∨ value = standard) :
    (known seen name value).getD standard = value := by
  by_cases old : name ∈ seen
  · rw [known_of_mem old, Option.getD_some]
  · rw [known, if_neg old, Option.getD_none, usual.resolve_left old]

end Known

namespace Table

variable {α : Type}

theorem get?_foldl_insert {entries : List (String × α)} (distinct : (entries.map (·.1)).Nodup)
    (t : Table α) {key : String} {value : α} :
    (entries.foldl (fun t entry => t.insert entry.1 entry.2) t).get? key = some value ↔
      (key, value) ∈ entries ∨ key ∉ entries.map (·.1) ∧ t.get? key = some value := by
  induction entries generalizing t with
  | nil => simp
  | cons entry entries ih =>
    rw [List.map_cons, List.nodup_cons] at distinct
    obtain ⟨new, distinct⟩ := distinct
    rw [List.foldl_cons, ih distinct, get?_insert]
    by_cases here : entry.1 = key
    · subst here
      have notLater : ∀ value, (entry.1, value) ∉ entries := fun value member =>
        new (List.mem_map.mpr ⟨_, member, rfl⟩)
      simp [new, notLater, Prod.ext_iff, eq_comm]
    · simp [here, Ne.symm here, Prod.ext_iff]

theorem nodup_keys (t : Table α) : (t.toList.map (·.1)).Nodup := by
  rw [List.Nodup, List.pairwise_map]
  refine t.sorted.imp fun {a b} lower same => ?_
  rw [same] at lower
  exact String.lt_irrefl b.1 lower

/-- The entries of a table make the table in any order. -/
theorem ofList_of_perm {t : Table α} {entries : List (String × α)} (order : entries.Perm t.toList) :
    ofList entries = t := by
  have distinct : (entries.map (·.1)).Nodup := (order.map _).nodup_iff.mpr t.nodup_keys
  refine ext_get? fun key => Option.ext fun value => ?_
  rw [ofList, get?_foldl_insert distinct, order.mem_iff, t.get?_eq_some_iff]
  simp [toList]

end Table

namespace Json

section Skipping

mutual

/-- Any value that is written out can be passed over. -/
theorem skip_draftOf (j : Json) : j.draftOf.skip = .ok () := by
  cases j with
  | array items =>
    rw [draftOf, Draft.skip, skipItems_itemDrafts items]
    rfl
  | object members =>
    rw [draftOf, Draft.skip, skipMembers_memberDrafts members]
    rfl
  | _ => rfl

theorem skipItems_itemDrafts (items : List Json) : Draft.skipItems (itemDrafts items) = .ok () := by
  cases items with
  | nil => rfl
  | cons item items =>
    rw [itemDrafts, Draft.skipItems, skip_draftOf item, ok_bind, skipItems_itemDrafts items]

theorem skipMembers_memberDrafts (members : List (String × Json)) :
    Draft.skipMembers (memberDrafts members) = .ok () := by
  rcases members with _ | ⟨⟨key, value⟩, members⟩
  · rfl
  · have later := skipMembers_memberDrafts members
    simp [memberDrafts, Draft.skipMembers, quotedOf, Closing.check, skip_draftOf value, later]

end

end Skipping

theorem strictMembers_iff {members : List (String × Json)} :
    StrictMembers members ↔ ∀ m ∈ members, m.2.Strict := by
  induction members with
  | nil => simp [StrictMembers]
  | cons m members ih => simp [StrictMembers, ih]

section Record

/-- How a field of a record is written: its key, when it may be left out, and the values that stand for it. -/
structure FieldSpelling where
  key : String
  optional : Prop
  spells : Json → Prop

/-- The members of an object spell a record. Each field stands there once, as it is written, or is left out
where it may be; under other keys there may be anything that JSON allows. -/
structure SpellsRecord (fields : List FieldSpelling) (members : List (String × Json)) : Prop where
  once : ∀ field ∈ fields, (members.map (·.1)).count field.key ≤ 1
  spelled : ∀ field ∈ fields, ∀ m ∈ members, m.1 = field.key → field.spells m.2
  complete : ∀ field ∈ fields, field.key ∈ members.map (·.1) ∨ field.optional
  strict : ∀ m ∈ members, m.1 ∉ fields.map (·.key) → m.2.Strict

theorem SpellsRecord.strict_object {fields : List FieldSpelling} {members : List (String × Json)}
    (spells : SpellsRecord fields members) (each : ∀ field ∈ fields, ∀ j, field.spells j → j.Strict) :
    (Json.object members).Strict := by
  refine strictMembers_iff.mpr fun m member => ?_
  by_cases field : m.1 ∈ fields.map (·.key)
  · obtain ⟨field, inFields, same⟩ := List.mem_map.mp field
    exact each field inFields m.2 (spells.spelled field inFields m member same.symm)
  · exact spells.strict m member field

/-- Nothing more is to be checked of a record that is written out with its keys in order. -/
theorem SpellsRecord.of_keys {fields : List FieldSpelling} {members : List (String × Json)}
    (keys : members.map (·.1) = fields.map (·.key)) (distinct : (fields.map (·.key)).Nodup)
    (spelled : ∀ field ∈ fields, ∀ m ∈ members, m.1 = field.key → field.spells m.2) :
    SpellsRecord fields members where
  once field _ := by
    rw [keys]
    exact List.nodup_iff_count_le_one.mp distinct field.key
  spelled := spelled
  complete field member := by
    rw [keys]
    exact .inl (List.mem_map_of_mem member)
  strict m member other := by
    rw [← keys] at other
    exact absurd (List.mem_map_of_mem member) other

variable {σ : Type} {readers : List (RecordField σ)} {fields : List FieldSpelling}
  {state : List String → σ} {members : List (String × Json)}

/-- A reader of a record follows the spelling of a field through the states that the record is read in, each
told by the keys seen so far: it knows whether its key is one of these, and reads what spells the field into
the state with its key. -/
structure Follows (state : List String → σ) (reader : RecordField σ) (field : FieldSpelling) : Prop where
  name_eq : reader.name = field.key
  isRead : ∀ seen, reader.isRead (state seen) = decide (field.key ∈ seen)
  read : ∀ seen j, field.spells j → reader.read (state seen) j.draftOf = .ok (state (field.key :: seen))

/-- The readers follow the fields one by one, and other keys do not change the state. -/
structure Tracks (readers : List (RecordField σ)) (fields : List FieldSpelling)
    (state : List String → σ) : Prop where
  each : readers.Forall₂ (Follows state) fields
  others : ∀ key seen, key ∉ fields.map (·.key) → state (key :: seen) = state seen

theorem find?_reader (each : readers.Forall₂ (Follows state) fields) (key : String) :
    (readers.find? (·.name = key) = none ∧ key ∉ fields.map (·.key)) ∨
      ∃ reader, readers.find? (·.name = key) = some reader ∧
        ∃ field ∈ fields, field.key = key ∧ Follows state reader field := by
  induction each with
  | nil => exact .inl ⟨rfl, by simp⟩
  | @cons reader field _ _ here _ ih =>
    by_cases same : reader.name = key
    · exact .inr ⟨reader, List.find?_cons_of_pos (by simpa using same), field, List.mem_cons_self,
        here.name_eq ▸ same, here⟩
    · rw [List.find?_cons_of_neg (by simpa using same)]
      rcases ih with ⟨none, other⟩ | ⟨later, found, field', member, rest⟩
      · refine .inl ⟨none, ?_⟩
        rw [List.map_cons, List.mem_cons, not_or]
        exact ⟨fun equal => same (here.name_eq.trans equal.symm), other⟩
      · exact .inr ⟨later, found, field', List.mem_cons_of_mem _ member, rest⟩

theorem Tracks.readMember (tracks : Tracks readers fields state) {seen : List String} {key : String}
    {value : Json} (new : ∀ field ∈ fields, field.key = key → key ∉ seen)
    (spelled : ∀ field ∈ fields, field.key = key → field.spells value) :
    Draft.readMember readers (state seen) (.string (quotedOf key), value.draftOf) =
      .ok (state (key :: seen)) := by
  have keyRead : (Draft.string (quotedOf key)).keyText = .ok key := text_quotedOf key
  rw [Draft.readMember, keyRead, ok_bind]
  rcases find?_reader tracks.each key with ⟨none, other⟩ | ⟨reader, found, field, inFields, rfl, follows⟩
  · rw [none, tracks.others key seen other]
    simp [skip_draftOf]
  · have notRead : reader.isRead (state seen) = false := by
      simpa [follows.isRead seen] using new field inFields rfl
    rw [found]
    simp only [notRead, Bool.false_eq_true, if_false]
    exact follows.read seen value (spelled field inFields rfl)

/-- Members are read one after the other, each into the state with its key. -/
theorem Tracks.foldlM_readMember (tracks : Tracks readers fields state)
    (spelled : ∀ field ∈ fields, ∀ m ∈ members, m.1 = field.key → field.spells m.2) {seen : List String}
    (once : ∀ field ∈ fields, ((members.map (·.1)).reverse ++ seen).count field.key ≤ 1) :
    (memberDrafts members).foldlM (Draft.readMember readers) (state seen) =
      .ok (state ((members.map (·.1)).reverse ++ seen)) := by
  induction members generalizing seen with
  | nil => rfl
  | cons m members ih =>
    obtain ⟨key, value⟩ := m
    simp only [List.map_cons, List.reverse_cons, List.append_assoc, List.singleton_append] at once ⊢
    -- A key that had been seen would be there twice.
    have new : ∀ field ∈ fields, field.key = key → key ∉ seen := by
      rintro field inFields rfl old
      have twice := once field inFields
      rw [List.count_append, List.count_cons_self] at twice
      have positive := List.count_pos_iff.mpr old
      omega
    have here := tracks.readMember new fun field inFields same =>
      spelled field inFields _ List.mem_cons_self same.symm
    rw [memberDrafts, List.foldlM_cons, here, ok_bind]
    exact ih (fun field inFields m member => spelled field inFields m (List.mem_cons_of_mem _ member)) once

/-- A record is read to the state with all of its keys. -/
theorem record_eq_of_spells (state : List String → σ) (tracks : Tracks readers fields state)
    (spells : SpellsRecord fields members) :
    (draftOf (.object members)).record readers (state []) =
      .ok (state (members.map (·.1)).reverse) := by
  rw [record_draftOf, tracks.foldlM_readMember spells.spelled, List.append_nil]
  intro field inFields
  rw [List.append_nil, List.count_reverse]
  exact spells.once field inFields

theorem SpellsRecord.key_mem (spells : SpellsRecord fields members) {field : FieldSpelling}
    (inFields : field ∈ fields) :
    field.key ∈ (members.map (·.1)).reverse ∨ field.optional := by
  rw [List.mem_reverse]
  exact spells.complete field inFields

end Record

section Lists

variable {α : Type} {item : Draft → Except Failure α} {spells : α → Json → Prop}

/-- An array spells a list item by item. -/
def SpellsList (spells : α → Json → Prop) (values : List α) (j : Json) : Prop :=
  ∃ items, j = .array items ∧ values.Forall₂ spells items

/-- An object spells a table: its members are those of the table, in any order. -/
def SpellsTable (spells : α → Json → Prop) (t : Table α) (j : Json) : Prop :=
  ∃ members, j = .object members ∧ ∃ entries : List (String × α), entries.Perm t.toList ∧
    entries.Forall₂ (fun entry m => m.1 = entry.1 ∧ spells entry.2 m.2) members

theorem mapM_eq_ok_of_forall₂ {β : Type} {f : β → Except Failure α} {as : List α} {bs : List β}
    (each : as.Forall₂ (fun a b => f b = .ok a) bs) : bs.mapM f = .ok as := by
  rw [mapM_eq_ok_iff]
  induction each with
  | nil => rfl
  | cons here _ ih => rw [List.map_cons, List.map_cons, here, ih]

theorem list_of_spells (reads : ∀ a j, spells a j → item j.draftOf = .ok a) {values : List α} {j : Json}
    (spelled : SpellsList spells values j) : j.draftOf.list item = .ok values := by
  obtain ⟨items, rfl, each⟩ := spelled
  have read : (itemDrafts items).mapM item = .ok values := by
    rw [itemDrafts_eq_map, List.mapM_map]
    exact mapM_eq_ok_of_forall₂ (each.imp reads)
  rw [draftOf, Draft.list, read]
  rfl

/-- A table is read from its members in any order. -/
theorem table_of_spells (reads : ∀ a j, spells a j → item j.draftOf = .ok a) {t : Table α} {j : Json}
    (spelled : SpellsTable spells t j) : j.draftOf.table item = .ok t := by
  obtain ⟨members, rfl, entries, order, each⟩ := spelled
  rw [draftOf, Draft.table]
  refine bind_eq_ok_iff.mpr ⟨entries, ?_, ?_⟩
  · rw [memberDrafts_eq_map, List.mapM_map]
    refine mapM_eq_ok_of_forall₂ (each.imp fun entry m here => ?_)
    obtain ⟨same, value⟩ := here
    simp [Draft.keyText, reads _ _ value, same]
  · rw [Closing.check, ok_bind, Table.ofList_of_perm order]

theorem spellsList_map (spells : α → Json → Prop) {write : α → Json}
    (written : ∀ a, spells a (write a)) (values : List α) :
    SpellsList spells values (.array (values.map write)) :=
  ⟨_, rfl, List.forall₂_map_right_iff.mpr (List.forall₂_same.mpr fun a _ => written a)⟩

theorem spellsTable_map (spells : α → Json → Prop) {write : α → Json}
    (written : ∀ a, spells a (write a)) (t : Table α) :
    SpellsTable spells t (.object (t.toList.map fun (key, value) => (key, write value))) :=
  ⟨_, rfl, t.toList, .refl _, List.forall₂_map_right_iff.mpr
    (List.forall₂_same.mpr fun entry _ => ⟨rfl, written entry.2⟩)⟩

theorem SpellsList.strict (strict : ∀ a j, spells a j → j.Strict) {values : List α} {j : Json}
    (spelled : SpellsList spells values j) : j.Strict := by
  obtain ⟨items, rfl, each⟩ := spelled
  change StrictItems items
  induction each with
  | nil => trivial
  | cons here _ ih => exact ⟨strict _ _ here, ih⟩

theorem SpellsTable.strict (strict : ∀ a j, spells a j → j.Strict) {t : Table α} {j : Json}
    (spelled : SpellsTable spells t j) : j.Strict := by
  obtain ⟨members, rfl, entries, -, each⟩ := spelled
  change StrictMembers members
  induction each with
  | nil => trivial
  | cons here _ ih => exact ⟨strict _ _ here.2, ih⟩

end Lists

end Json

end FilterQuery
