import FilterQuery.Expression.Parse
import FilterQuery.Proofs.Expression.Needles

/-!
Expressions that are written as a field, an operator and a value. The operator is found where it is
written if nothing that is looked for before it occurs in the value (`operator?_written`), and else
behind that place (`operator?_captured`).
-/
namespace FilterQuery

open Text Expression

namespace Expression

variable {field value : List Char} {row : List Char × Operator}

/-- The text of a written expression without the blanks at its ends. -/
def written (field needle value : List Char) : List Char :=
  field ++ (lead needle ++ needle) ++ trimEnd (' ' :: value)

theorem FieldLike.start (fieldLike : FieldLike field) : ∃ c ∈ field.head?, isBlank c = false := by
  obtain ⟨c, cs, rfl⟩ := List.exists_cons_of_ne_nil fieldLike.1
  exact ⟨c, rfl, (fieldLike.2 c List.mem_cons_self).1⟩

theorem FieldLike.stop (fieldLike : FieldLike field) : ∃ c ∈ field.getLast?, isBlank c = false := by
  refine ⟨field.getLast fieldLike.1, List.getLast?_eq_some_getLast fieldLike.1, ?_⟩
  exact (fieldLike.2 _ (List.getLast_mem fieldLike.1)).1

theorem getLast?_append_of_some {as bs : List Char} {c : Char} (last : bs.getLast? = some c) :
    (as ++ bs).getLast? = some c := by
  rw [List.getLast?_append, last]
  rfl

/-- A field and an operator behind it start and end with other characters than blanks. -/
theorem ends_of_written (fieldLike : FieldLike field) (known : row ∈ needles) :
    (∃ c ∈ (field ++ (lead row.1 ++ row.1)).head?, isBlank c = false) ∧
      ∃ c ∈ (field ++ (lead row.1 ++ row.1)).getLast?, isBlank c = false := by
  obtain ⟨first, atHead, firstPlain⟩ := fieldLike.start
  obtain ⟨last, atEnd, lastPlain⟩ := last_of_needle known
  refine ⟨⟨first, ?_, firstPlain⟩, last, ?_, lastPlain⟩
  · rw [List.head?_append_of_ne_nil _ fieldLike.1]
    exact atHead
  · exact getLast?_append_of_some (getLast?_append_of_some atEnd)

theorem trim_written (fieldLike : FieldLike field) (known : row ∈ needles) :
    trim (field ++ (lead row.1 ++ row.1) ++ ' ' :: value) = written field row.1 value := by
  obtain ⟨start, stop⟩ := ends_of_written fieldLike known
  rw [trim_append start stop, written]

theorem trim_trim_written (fieldLike : FieldLike field) (known : row ∈ needles) :
    trim (written field row.1 value) = written field row.1 value := by
  obtain ⟨start, stop⟩ := ends_of_written fieldLike known
  rw [written, trim_append start stop, trimEnd_trimEnd]

theorem trim_field (fieldLike : FieldLike field) (needle : List Char) :
    trim (field ++ lead needle) = field := trim_append_lead fieldLike.start fieldLike.stop needle

theorem trim_value (trimmed : trim value = value) : trim (trimEnd (' ' :: value)) = value := by
  by_cases empty : value = []
  · rw [empty]
    decide
  · rw [trimEnd_cons trimmed empty, trim_blank_cons (by decide), trimmed]

/-- What occurs in a written expression without its last blanks occurs in it with them. -/
theorem occurs_of_trimmed {needle : List Char} (occurs : Occurs needle (written field row.1 value)) :
    Occurs needle (field ++ (lead row.1 ++ row.1) ++ ' ' :: value) := by
  obtain ⟨blanks, shape⟩ : ∃ blanks, ' ' :: value = trimEnd (' ' :: value) ++ blanks := by
    obtain ⟨blanks, shape⟩ := trimEnd_prefix (' ' :: value)
    exact ⟨blanks, shape.symm⟩
  rw [shape, ← List.append_assoc]
  exact occurs.append blanks

/-- There is no connective in a written expression without a connective among the words of its value. -/
theorem connective?_written (fieldLike : FieldLike field) (known : row ∈ needles)
    (noConnective : ∀ word ∈ words value, ∀ c ∈ Connective.all, ¬sameText c.keyword.toList word) :
    connective? (written field row.1 value) = none := by
  rw [connective?, List.find?_eq_none]
  intro connective inAll found
  have occurs : Occurs (separator connective) (written field row.1 value) := occurs_of_isSome found
  have inValue := occurs_of_written fieldLike (c := ' ') (by decide) rfl
    (bars_separator row known connective inAll) (occurs_of_trimmed occurs)
  obtain ⟨front, back, shape, found, rest, rfl, same⟩ := inValue
  obtain ⟨word, rfl, sameWord⟩ := sameText_between same
  obtain ⟨_, letters⟩ := keyword_plain connective
  have nonempty : word ≠ [] := by
    rintro rfl
    have size := length_eq_of_sameText sameWord
    cases connective <;> cases size
  -- The first of its blanks may be the one behind the operator, so that it starts the value.
  have between : ' ' :: value = front ++ ' ' :: (word ++ ' ' :: rest) := by simpa using shape
  have plain := isBlank_of_sameText sameWord letters
  exact noConnective word (mem_words_of_between (by decide) between plain nonempty) connective inAll
    sameWord

/-- If nothing that is looked for before it occurs in the value, the operator is found where it is
written. -/
theorem operator?_written (fieldLike : FieldLike field) (known : row ∈ needles)
    (free : ∀ other ∈ needlesBefore row.1, ¬Occurs other.1 (' ' :: value)) :
    operator? (written field row.1 value) =
      some ⟨row.2, ⟨field ++ lead row.1, row.1, trimEnd (' ' :: value)⟩⟩ := by
  obtain ⟨c, initial, head⟩ := initial_of_needle known
  have shape : written field row.1 value =
      field ++ lead row.1 ++ (row.1 ++ trimEnd (' ' :: value)) := by
    simp only [written, List.append_assoc]
  rw [shape]
  refine operator?_append known
    ((fieldLike.startsNotIn initial head _).append (lead_startsNotIn known _)) fun other earlier occurs => ?_
  obtain ⟨d, otherInitial, otherHead⟩ := initial_of_needle (mem_needles_of_before earlier)
  rw [← shape] at occurs
  exact free other earlier (occurs_of_written fieldLike otherInitial otherHead
    (bars_before row known other earlier) (occurs_of_trimmed occurs))

/-- If a needle that is looked for before the operator occurs in the value, the operator that is found
stands behind the one that is written. -/
theorem operator?_captured (fieldLike : FieldLike field) (known : row ∈ needles)
    (trimmed : trim value = value) {other : List Char × Operator}
    (earlier : other ∈ needlesBefore row.1) (occurs : Occurs other.1 value) :
    ∃ found more, operator? (written field row.1 value) = some found ∧
      found.place.before = field ++ (lead row.1 ++ row.1) ++ more := by
  have nonempty : value ≠ [] := by
    rintro rfl
    exact not_occurs_nil (needle_ne_nil (mem_needles_of_before earlier)) occurs
  have shape : written field row.1 value = field ++ (lead row.1 ++ row.1) ++ ' ' :: value := by
    rw [written, trimEnd_cons trimmed nonempty]
  obtain ⟨later, _, split⟩ := needles_split row known
  cases early : (needlesBefore row.1).findSome? (hit (written field row.1 value)) with
  | none =>
    have missed := List.findSome?_eq_none_iff.mp early other earlier
    rw [hit, Option.map_eq_none_iff,
      find?_eq_none_iff (needle_ne_nil (mem_needles_of_before earlier)), shape] at missed
    have inside := (occurs.prepend [' ']).prepend (field ++ (lead row.1 ++ row.1))
    exact absurd inside missed
  | some found =>
    -- It need not be `other` that is found, but nothing looked for so early starts in front of the value.
    obtain ⟨first, firstEarlier, here⟩ := List.exists_of_findSome?_eq_some early
    obtain ⟨place, placed, rfl⟩ := Option.map_eq_some_iff.mp here
    obtain ⟨parts, same⟩ := find?_found placed
    obtain ⟨c, initial, head⟩ := initial_of_needle (mem_needles_of_before firstEarlier)
    have nowhere := written_startsNotIn fieldLike initial head
      (bars_before row known first firstEarlier) value
    have result : operator? (written field row.1 value) = some ⟨first.2, place⟩ := by
      rw [operator?_eq, split, List.findSome?_append, early]
      rfl
    rw [shape, List.append_assoc] at parts
    rcases List.append_eq_append_iff.mp parts with ⟨more, front, rest⟩ | ⟨more, behind, _⟩
    · by_cases empty : more = []
      · rw [empty, List.append_nil] at front
        exact ⟨_, [], result, by rw [front, List.append_nil]⟩
      · exact absurd ⟨place.found, place.after, rest.symm, same⟩ (nowhere place.before more front empty)
    · exact ⟨_, more, result, behind⟩

/-- A written expression is read as one condition, with the operator that is found first. -/
theorem ofChars_written (fieldLike : FieldLike field) (known : row ∈ needles)
    (noConnective : ∀ word ∈ words value, ∀ c ∈ Connective.all, ¬sameText c.keyword.toList word)
    {found : OperatorMatch} (first : operator? (written field row.1 value) = some found) :
    Filter.ofChars (field ++ (lead row.1 ++ row.1) ++ ' ' :: value) = .ok (.single {
      field := String.ofList found.field
      operator := found.operator
      value := if found.operator.isNullCheck then .null else Value.ofToken found.rest
      raw := String.ofList (written field row.1 value) }) := by
  unfold Filter.ofChars Condition.ofChars
  simp only [trim_written fieldLike known, connective?_written fieldLike known noConnective,
    trim_trim_written fieldLike known, first]
  rfl

end Expression

section Parse

variable {field spelling value : String} {operator : Operator}

/-- An expression that is written as a field, an operator and a value is read as just that condition
exactly if no sign that is looked for before the operator occurs in the value. There is no connective
among the words of the value, and no word that is an operator behind a blank of it. -/
theorem parse_written_iff (known : (spelling, operator) ∈ Operator.keywords ++ Operator.comparisons)
    (fieldLike : FieldLike field.toList) (trimmed : trim value.toList = value.toList)
    (noConnective : ∀ word ∈ words value.toList, ∀ c ∈ Connective.all,
      ¬sameText c.keyword.toList word)
    (noKeyword : ∀ keyword ∈ Operator.keywords,
      ¬Occurs (' ' :: keyword.1.toList) (' ' :: value.toList)) :
    Filter.parse (field ++ " " ++ spelling ++ " " ++ value) = .ok (.single {
        field := field
        operator := operator
        value := if operator.isNullCheck then .null else Value.coerce (some value)
        raw := String.ofList (trim (field ++ " " ++ spelling ++ " " ++ value).toList) }) ↔
      ∀ sign ∈ signsBefore spelling, ¬Occurs sign.toList value.toList := by
  obtain ⟨row, inTable, rfl, spelled, before, signs⟩ := row_of_spelling _ known
  have text : (field ++ " " ++ spelling ++ " " ++ value).toList =
      field.toList ++ (lead row.1 ++ row.1) ++ ' ' :: value.toList := by
    rw [spelled]
    simp
  rw [Filter.parse, text, trim_written fieldLike inTable]
  constructor
  · intro ok sign isBefore occurs
    obtain ⟨other, earlier, same⟩ := signs sign isBefore
    rw [← same] at occurs
    obtain ⟨found, more, first, behind⟩ := operator?_captured fieldLike inTable trimmed earlier occurs
    obtain ⟨start, stop⟩ := ends_of_written fieldLike inTable
    rw [ofChars_written fieldLike inTable noConnective first] at ok
    simp only [Except.ok.injEq, Filter.single, Filter.mk.injEq, List.cons.injEq, Condition.mk.injEq,
      true_and, and_true] at ok
    -- The field would reach behind the operator, and be longer than the one that is written.
    have fields := congrArg (·.toList.length) ok.1
    simp only [OperatorMatch.field, behind, trim_append start stop, String.toList_ofList,
      List.length_append] at fields
    have positive := List.length_pos_iff.mpr (needle_ne_nil inTable)
    omega
  · intro noSign
    have free : ∀ other ∈ needlesBefore row.1, ¬Occurs other.1 (' ' :: value.toList) := by
      intro other earlier occurs
      rcases before other earlier with ⟨keyword, isKeyword, same⟩ | ⟨sign, isBefore, same⟩
      · rw [same] at occurs
        exact noKeyword keyword isKeyword occurs
      · rw [same] at occurs
        exact noSign sign isBefore (occurs_of_blank isBefore occurs)
    rw [ofChars_written fieldLike inTable noConnective (operator?_written fieldLike inTable free)]
    simp only [OperatorMatch.field, OperatorMatch.rest, trim_field fieldLike, trim_value trimmed,
      String.ofList_toList]
    rfl

/-- Signs that are looked for later may stand in the value. -/
theorem parse_written_quoted :
    Filter.parse ("maker.size" ++ " " ++ ">=" ++ " " ++ "'1 < 2 = 3'") = .ok (.single {
      field := "maker.size"
      operator := .gte
      value := .text "1 < 2 = 3"
      raw := "maker.size >= '1 < 2 = 3'" }) :=
  (parse_written_iff (by decide) (by decide) (by decide) (by decide) (by decide)).mpr (by decide)

/-- Signs that are looked for earlier may not. -/
theorem parse_written_captured :
    ("=", Operator.eq) ∈ Operator.keywords ++ Operator.comparisons ∧ FieldLike "name".toList ∧
      trim "'a != b'".toList = "'a != b'".toList ∧
      (∀ word ∈ words "'a != b'".toList, ∀ c ∈ Connective.all, ¬sameText c.keyword.toList word) ∧
      (∀ keyword ∈ Operator.keywords, ¬Occurs (' ' :: keyword.1.toList) (' ' :: "'a != b'".toList)) ∧
      (Filter.parse ("name" ++ " " ++ "=" ++ " " ++ "'a != b'")).toOption.map
        (·.conditions.map fun condition => (condition.field, condition.operator)) =
        some [("name = 'a", .neq)] := by
  decide +kernel

end Parse

end FilterQuery
