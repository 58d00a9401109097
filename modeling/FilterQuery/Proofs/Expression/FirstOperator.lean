import FilterQuery.Proofs.Expression.Display

/-!
The operator that is taken of those in a text. Main statement: it is that of the first row of the tables that
stands anywhere in the text, at the leftmost place of this row, and a text in which no row stands is no
condition (`operator?_takes_first`).
-/
namespace FilterQuery

open Text Expression

namespace Expression

variable {cs found : List Char} {row : String × Operator} {m : OperatorMatch}

/-- The rows of the tables, in the order in which they are looked for. -/
def rows : List (String × Operator) := Operator.keywords ++ Operator.comparisons

/-- The text is a spelling of the row: of a word with a space in front and in any case, and of a sign as it
is. -/
def Spells (row : String × Operator) (found : List Char) : Prop :=
  if row ∈ Operator.keywords then sameText (' ' :: row.1.toList) found = true else found = row.1.toList

def StandsIn (row : String × Operator) (cs : List Char) : Prop :=
  ∃ front found back, cs = front ++ (found ++ back) ∧ Spells row found

/-- The operator of the row is taken, where the row stands at the leftmost place and no row before it stands
anywhere. -/
structure Takes (cs : List Char) (row : String × Operator) (m : OperatorMatch) : Prop where
  earliest : ∃ before after, rows = before ++ row :: after ∧ ∀ other ∈ before, ¬StandsIn other cs
  operator : m.operator = row.2
  text : cs = m.place.before ++ (m.place.found ++ m.place.after)
  spells : Spells row m.place.found
  leftmost : ∀ front found back, cs = front ++ (found ++ back) → Spells row found →
    m.place.before.length ≤ front.length
  span : m.place.span = ⟨(String.ofList m.place.before).utf8ByteSize,
    (String.ofList (m.place.before ++ m.place.found)).utf8ByteSize⟩
  field : m.field = trim m.place.before
  rest : m.rest = trim m.place.after

/-- What is looked for to find the row. -/
def needleOf (row : String × Operator) : List Char :=
  if row ∈ Operator.keywords then ' ' :: row.1.toList else row.1.toList

section Tables

theorem not_keyword_of_sign : ∀ row ∈ Operator.comparisons, row ∉ Operator.keywords := by decide

theorem needles_eq_map : needles = rows.map fun row => (needleOf row, row.2) := by
  have words : Operator.keywords.map (fun row => (needleOf row, row.2)) =
      Operator.keywords.map fun row => (' ' :: row.1.toList, row.2) :=
    List.map_congr_left fun row isKeyword => by rw [needleOf, if_pos isKeyword]
  have signs : Operator.comparisons.map (fun row => (needleOf row, row.2)) =
      Operator.comparisons.map fun row => (row.1.toList, row.2) :=
    List.map_congr_left fun row isSign => by rw [needleOf, if_neg (not_keyword_of_sign row isSign)]
  rw [needles, rows, List.map_append, words, signs]

theorem nodup_rows : rows.Nodup := by decide

theorem initial_of_mem_sign : ∀ row ∈ Operator.comparisons,
    row.1.toList.all (signInitials.contains ·) = true := by
  decide

/-- The words stand behind those that they are part of. -/
theorem word_before : ∀ row ∈ rows,
    (row.2 = .inList → ("NOT IN", .notInList) ∈ rows.takeWhile (· ≠ row)) ∧
      (row.2 = .isNull → ("IS NOT NULL", .isNotNull) ∈ rows.takeWhile (· ≠ row)) := by
  decide

/-- The signs of one character stand behind those of two. -/
theorem sign_before : ∀ row ∈ rows, row.2 ∈ [.gt, .lt, .eq] → ∀ sign ∈ ["!=", "<>", ">=", "<="],
    ∃ other ∈ rows.takeWhile (· ≠ row), other.1 = sign ∧ other ∉ Operator.keywords := by
  decide +kernel

/-- No row is in the tables twice, so that the rows before one are told by the row alone. -/
theorem eq_takeWhile_of_split {before after : List (String × Operator)}
    (split : rows = before ++ row :: after) : before = rows.takeWhile (· ≠ row) := by
  have nodup := nodup_rows
  rw [split] at nodup ⊢
  have unequal : ∀ other ∈ before, decide (other ≠ row) = true := by
    intro other member
    rw [decide_eq_true_iff]
    rintro rfl
    exact (List.nodup_append.mp nodup).2.2 other member other List.mem_cons_self rfl
  rw [List.takeWhile_append_of_pos unequal]
  simp

end Tables

section Rows

/-- A sign is spelt in one way only. -/
theorem sameText_sign_iff {sign : List Char} (plain : ∀ c ∈ sign, c ∈ signInitials) :
    sameText sign found ↔ found = sign := by
  constructor
  · intro same
    exact eq_of_sameText (fun c member => caseless_of_initial c (List.mem_cons_of_mem _ (plain c member))) same
  · rintro rfl
    exact sameText_refl _

theorem spells_iff (known : row ∈ rows) : Spells row found ↔ sameText (needleOf row) found := by
  unfold Spells needleOf
  split
  · rfl
  · next notKeyword =>
    have isSign := (List.mem_append.mp known).resolve_left notKeyword
    have plain := initial_of_mem_sign row isSign
    exact (sameText_sign_iff (by simpa [List.all_eq_true] using plain)).symm

theorem needleOf_ne_nil (known : row ∈ rows) : needleOf row ≠ [] := by
  have inNeedles : (needleOf row, row.2) ∈ needles := by
    rw [needles_eq_map]
    exact List.mem_map_of_mem known
  exact needle_ne_nil inNeedles

theorem standsIn_iff (known : row ∈ rows) : StandsIn row cs ↔ Occurs (needleOf row) cs := by
  constructor
  · rintro ⟨front, found, back, rfl, spells⟩
    exact ⟨front, found ++ back, rfl, found, back, rfl, (spells_iff known).mp spells⟩
  · rintro ⟨front, _, rfl, found, back, rfl, same⟩
    exact ⟨front, found, back, rfl, (spells_iff known).mpr same⟩

theorem operator?_eq_findSome? (cs : List Char) :
    operator? cs = rows.findSome? fun row => (find? (needleOf row) cs).map (OperatorMatch.mk row.2) := by
  rw [operator?_eq, needles_eq_map, List.findSome?_map]
  rfl

theorem operator?_eq_none_iff : operator? cs = none ↔ ∀ row ∈ rows, ¬StandsIn row cs := by
  rw [operator?_eq_findSome?, List.findSome?_eq_none_iff]
  refine forall₂_congr fun row known => ?_
  rw [Option.map_eq_none_iff, find?_eq_none_iff (needleOf_ne_nil known), standsIn_iff known]

theorem operator?_eq_some_iff_takes : operator? cs = some m ↔ ∃ row, Takes cs row m := by
  rw [operator?_eq_findSome?, List.findSome?_eq_some_iff]
  constructor
  · rintro ⟨before, row, after, split, here, missed⟩
    obtain ⟨place, placed, rfl⟩ := Option.map_eq_some_iff.mp here
    have known : ∀ other ∈ before ++ row :: after, other ∈ rows := fun other member => split ▸ member
    have isRow := known row (by simp)
    obtain ⟨text, same, first⟩ := (find?_eq_some_iff (needleOf_ne_nil isRow)).mp placed
    rw [List.append_assoc] at text
    refine ⟨row, ⟨before, after, split, fun other member => ?_⟩, rfl, text.symm, (spells_iff isRow).mpr same,
      ?_, ?_, rfl, rfl⟩
    · have isRow' := known other (List.mem_append_left _ member)
      rw [standsIn_iff isRow', ← find?_eq_none_iff (needleOf_ne_nil isRow')]
      exact Option.map_eq_none_iff.mp (missed other member)
    · -- The search tells where nothing starts, which is that no place is further to the left.
      intro front found back shape spells
      rw [startsNotIn_iff_leftmost] at first
      exact first front (found ++ back) (text.trans shape) ⟨found, back, rfl, (spells_iff isRow).mp spells⟩
    · simp [Occurrence.span, byteLength_eq, String.ofList_append, String.utf8ByteSize_append]
  · rintro ⟨row, ⟨before, after, split, nowhere⟩, operator, text, spells, leftmost, _⟩
    have known : ∀ other ∈ before ++ row :: after, other ∈ rows := fun other member => split ▸ member
    have isRow := known row (by simp)
    refine ⟨before, row, after, split, ?_, fun other member => ?_⟩
    · have placed : find? (needleOf row) cs = some m.place := by
        rw [find?_eq_some_iff (needleOf_ne_nil isRow), startsNotIn_iff_leftmost, ← text, List.append_assoc]
        refine ⟨text.symm, (spells_iff isRow).mp spells, ?_⟩
        rintro front _ shape ⟨found, back, rfl, same⟩
        exact leftmost front found back shape ((spells_iff isRow).mpr same)
      rw [placed, ← operator]
      rfl
    · have isRow' := known other (List.mem_append_left _ member)
      rw [Option.map_eq_none_iff, find?_eq_none_iff (needleOf_ne_nil isRow'), ← standsIn_iff isRow']
      exact nowhere other member

/-- Where an operator is taken, nothing that it could be part of stands in the text. -/
theorem Takes.alone (takes : Takes cs row m) :
    (m.operator = .inList → ¬StandsIn ("NOT IN", .notInList) cs) ∧
    (m.operator = .isNull → ¬StandsIn ("IS NOT NULL", .isNotNull) cs) ∧
    (m.operator ∈ [.gt, .lt, .eq] → ∀ sign ∈ ["!=", "<>", ">=", "<="], ¬sign.toList <:+: cs) := by
  obtain ⟨before, after, split, nowhere⟩ := takes.earliest
  have known : row ∈ rows := by
    rw [split]
    exact List.mem_append_right _ List.mem_cons_self
  obtain ⟨word, check⟩ := word_before row known
  have signs := sign_before row known
  rw [← eq_takeWhile_of_split split] at word check signs
  rw [takes.operator]
  refine ⟨fun same => nowhere _ (word same), fun same => nowhere _ (check same), fun same sign isSign => ?_⟩
  obtain ⟨other, member, rfl, notKeyword⟩ := signs same sign isSign
  rintro ⟨front, back, shape⟩
  rw [List.append_assoc] at shape
  exact nowhere other member ⟨front, _, back, shape.symm, by rw [Spells, if_neg notKeyword]⟩

end Rows

end Expression

theorem Condition.ofChars_eq_error_iff {cs : List Char} {fault : Fault} :
    Condition.ofChars cs = .error fault ↔
      operator? (trim cs) = none ∧ fault = .noOperator (String.ofList (trim cs)) := by
  rw [Condition.ofChars]
  cases first : operator? (trim cs) with
  | none =>
    constructor
    · intro failed
      cases failed
      exact ⟨rfl, rfl⟩
    · rintro ⟨_, rfl⟩
      rfl
  | some m =>
    constructor
    · intro failed
      cases failed
    · rintro ⟨found, _⟩
      cases found

/-- Of the words behind a space, in any case, and the signs in a text that operator is taken which comes first in
the order of the tables, at the leftmost place where it stands. What stands before and behind it, without
blanks, is the field and what is read as the value. A text is no condition exactly if none of them stands in
it, and it is then told to be none. No operator is taken out of a longer one. -/
theorem operator?_takes_first (text : String) :
    (operator? text.toList = none ↔ ∀ row ∈ rows, ¬StandsIn row text.toList) ∧
    (∀ m, operator? text.toList = some m ↔ ∃ row, Takes text.toList row m) ∧
    (∀ m, operator? text.toList = some m →
      (m.operator = .inList → ¬StandsIn ("NOT IN", .notInList) text.toList) ∧
      (m.operator = .isNull → ¬StandsIn ("IS NOT NULL", .isNotNull) text.toList) ∧
      (m.operator ∈ [.gt, .lt, .eq] → ∀ sign ∈ ["!=", "<>", ">=", "<="], ¬sign.toList <:+: text.toList)) ∧
    (∀ fault, Condition.parse text = .error fault ↔
      (∀ row ∈ rows, ¬StandsIn row (trim text.toList)) ∧
        fault = .noOperator (String.ofList (trim text.toList))) ∧
    ∀ c, Condition.parse text = .ok c ↔ ∃ row m, Takes (trim text.toList) row m ∧
      c = ⟨String.ofList (trim m.place.before), row.2,
        if row.2.isNullCheck then .null else Value.ofToken (trim m.place.after),
        String.ofList (trim text.toList)⟩ := by
  refine ⟨operator?_eq_none_iff, fun m => operator?_eq_some_iff_takes, fun m found => ?_, fun fault => ?_,
    fun c => ?_⟩
  · obtain ⟨row, takes⟩ := operator?_eq_some_iff_takes.mp found
    exact takes.alone
  · rw [Condition.parse, Condition.ofChars_eq_error_iff, operator?_eq_none_iff]
  · rw [Condition.parse, Condition.ofChars_eq_ok_iff]
    constructor
    · rintro ⟨m, found, rfl⟩
      obtain ⟨row, takes⟩ := operator?_eq_some_iff_takes.mp found
      exact ⟨row, m, takes, by rw [takes.operator]; rfl⟩
    · rintro ⟨row, m, takes, rfl⟩
      exact ⟨m, operator?_eq_some_iff_takes.mpr ⟨row, takes⟩, by rw [takes.operator]; rfl⟩

end FilterQuery
