import FilterQuery.Expression.OperatorMatch
import FilterQuery.Expression.Separator
import FilterQuery.Proofs.Text.Blank
import FilterQuery.Proofs.Text.Search

/-!
The tables of operators: what is looked for before what, and where it cannot be found. Main statement:
in an expression that is written as a field, an operator and a value nothing that is looked for before
the operator is found, unless it is found in the value (`occurs_of_written`).
-/
namespace FilterQuery.Expression

open Text

/-- What a sign is written with in front: a blank, which for a word is looked for together with the
word. -/
def lead (needle : List Char) : List Char := if needle.head? = some ' ' then [] else [' ']

def needlesBefore (needle : List Char) : List (List Char × Operator) :=
  needles.takeWhile (·.1 ≠ needle)

/-- What is looked for to tell whether there is a connective. -/
def separator (connective : Connective) : List Char := ' ' :: connective.keyword.toList ++ [' ']

/-- The signs that are looked for before an operator. No sign is looked for before a word. -/
def signsBefore (spelling : String) : List String :=
  if spelling ∈ Operator.keywords.map Prod.fst then []
  else (Operator.comparisons.map Prod.fst).takeWhile (· ≠ spelling)

def signInitials : List Char := ['!', '<', '>', '=']

/-- The text can stand in front of an operator: it is not empty, and there are neither blanks in it nor
characters of signs. Dotted paths of letters, digits and underscores are such texts. -/
def FieldLike (cs : List Char) : Prop := cs ≠ [] ∧ ∀ c ∈ cs, isBlank c = false ∧ c ∉ signInitials

-- Character by character: there are too many characters to go through them all.
instance (cs : List Char) : Decidable (FieldLike cs) :=
  decidable_of_iff (cs ≠ [] ∧ cs.all fun c => !isBlank c && !signInitials.contains c)
    (by simp [FieldLike])

section Tables

/-- The tables character by character, as the decisions below go through them. -/
theorem needles_eq : needles = [
    ([' ', 'N', 'O', 'T', ' ', 'I', 'N'], .notInList),
    ([' ', 'I', 'S', ' ', 'N', 'O', 'T', ' ', 'N', 'U', 'L', 'L'], .isNotNull),
    ([' ', 'I', 'S', ' ', 'N', 'U', 'L', 'L'], .isNull), ([' ', 'L', 'I', 'K', 'E'], .like),
    ([' ', 'I', 'N'], .inList), (['!', '='], .neq), (['<', '>'], .neq), (['>', '='], .gte),
    (['<', '='], .lte), (['>'], .gt), (['<'], .lt), (['='], .eq)] := rfl

def initials : List Char := ' ' :: signInitials

theorem initial_of_needle {row : List Char × Operator} (known : row ∈ needles) :
    ∃ c ∈ initials, row.1.head? = some c := by
  have table : ∀ row ∈ needles, row.1.head? ∈ initials.map some := by
    rw [needles_eq]
    decide
  obtain ⟨c, initial, head⟩ := List.mem_map.mp (table row known)
  exact ⟨c, initial, head.symm⟩

theorem plain_of_initial : ∀ c ∈ initials, c = ' ' ∨ isBlank c = false := by
  have table : initials.all (fun c => c == ' ' || !isBlank c) = true := by decide
  simpa [List.all_eq_true] using table

theorem last_of_needle {row : List Char × Operator} (known : row ∈ needles) :
    ∃ c, row.1.getLast? = some c ∧ isBlank c = false := by
  have table : ∀ row ∈ needles, row.1.getLast?.map isBlank = some false := by
    rw [needles_eq]
    decide
  exact Option.map_eq_some_iff.mp (table row known)

theorem caseless_of_initial : ∀ c ∈ initials, Caseless c := by
  have table : initials.all (fun c => decide (Caseless c)) = true := by decide
  simpa [List.all_eq_true] using table

/-- No other letter is written as one of them in lower case. -/
theorem eq_of_toLower_initial {c d : Char} (initial : c ∈ initials) (same : d.toLower = c.toLower) :
    d = c := by
  have mark := caseless_of_initial c initial
  exact mark.toLower_eq_iff.mp (same.trans mark.1)

theorem keyword_plain (connective : Connective) :
    connective.keyword.toList ≠ [] ∧ ∀ c ∈ connective.keyword.toList, isBlank c = false := by
  have table : (connective.keyword.toList != [] &&
      connective.keyword.toList.all fun c => !isBlank c) = true := by cases connective <;> decide
  simpa using table

/-- Each row of the tables stands behind those that are looked for before it. -/
theorem needles_split : ∀ row ∈ needles, ∃ later ∈ needles.tails,
    needles = needlesBefore row.1 ++ row :: later := by
  simp only [needlesBefore, needles_eq]
  decide

/-- An operator and the blanks around it keep from starting what is looked for before it. -/
theorem bars_before : ∀ row ∈ needles, ∀ other ∈ needlesBefore row.1,
    Bars (lead row.1 ++ row.1) other.1 := by
  simp only [needlesBefore, needles_eq]
  decide

theorem bars_separator : ∀ row ∈ needles, ∀ connective ∈ Connective.all,
    Bars (lead row.1 ++ row.1) (separator connective) := by
  rw [needles_eq]
  decide

/-- Every operator is written as a blank and its spelling, and what is looked for before it are words
behind a blank, and the signs before it. -/
theorem row_of_spelling : ∀ entry ∈ Operator.keywords ++ Operator.comparisons, ∃ row ∈ needles,
    row.2 = entry.2 ∧ lead row.1 ++ row.1 = ' ' :: entry.1.toList ∧
      (∀ other ∈ needlesBefore row.1,
        (∃ keyword ∈ Operator.keywords, other.1 = ' ' :: keyword.1.toList) ∨
          ∃ sign ∈ signsBefore entry.1, other.1 = sign.toList) ∧
      ∀ sign ∈ signsBefore entry.1, ∃ other ∈ needlesBefore row.1, other.1 = sign.toList := by
  simp only [needlesBefore, needles_eq]
  decide

/-- An operator is shown as one of its rows, and no more is looked for before that row. -/
theorem shown_of_row : ∀ row ∈ needles, ∃ shown ∈ needles, shown.2 = row.2 ∧
    lead shown.1 ++ shown.1 = ' ' :: row.2.text.toList ∧ lead shown.1 = lead row.1 ∧
      (shown = row ∨ shown ∈ needlesBefore row.1) ∧
      ∀ other ∈ needlesBefore shown.1, other ∈ needlesBefore row.1 := by
  simp only [needlesBefore, needles_eq]
  decide

/-- What follows a field goes on like no rest of what is looked for, with one exception. -/
theorem not_starts_rest : ∀ shown ∈ needles, ∀ other ∈ shown :: needlesBefore shown.1,
    ∀ rest ∈ other.1.tails, rest ≠ [] → rest ≠ other.1 →
      (shown.2 = .inList ∧ other.1 = " NOT".toList ++ rest) ∨
        ¬Starts rest (lead shown.1 ++ shown.1) ∧ ¬Starts (lead shown.1 ++ shown.1) rest := by
  simp only [needlesBefore, needles_eq]
  decide

/-- No operator is found in the words that values are shown as. -/
theorem not_occurs_keyword : ∀ row ∈ needles, ∀ word ∈ ["", "NULL", "true", "false"],
    ¬Occurs row.1 (' ' :: word.toList) := by
  rw [needles_eq]
  decide

/-- No operator is written with the marks that values are written with. -/
theorem marks_outside : ∀ row ∈ needles, ∀ mark ∈ ['\'', '(', ')', ','],
    ∀ c ∈ row.1, c.toLower ≠ mark.toLower := by
  have table : ∀ row ∈ needles, (['\'', '(', ')', ','].all fun mark =>
      row.1.all fun c => c.toLower != mark.toLower) = true := by
    rw [needles_eq]
    decide
  intro row known mark isMark c member
  exact bne_iff_ne.mp
    (List.all_eq_true.mp (List.all_eq_true.mp (table row known) mark isMark) c member)

theorem letter_of_needle : ∀ row ∈ needles, ∃ c ∈ row.1,
    c.toLower ≠ ' ' ∧ c.toLower ≠ '-' ∧ c.toLower ≠ '.' ∧ c.toLower.isDigit = false := by
  have table : ∀ row ∈ needles, (row.1.any fun c =>
      c.toLower != ' ' && c.toLower != '-' && c.toLower != '.' && !c.toLower.isDigit) = true := by
    rw [needles_eq]
    decide
  intro row known
  obtain ⟨c, member, plain⟩ := List.any_eq_true.mp (table row known)
  simp only [Bool.and_eq_true, bne_iff_ne, Bool.not_eq_true', and_assoc] at plain
  exact ⟨c, member, plain⟩

theorem initial_of_sign {entry : String × Operator} (sign : entry ∈ Operator.comparisons) :
    ∃ c ∈ signInitials, entry.1.toList.head? = some c := by
  have table : ∀ entry ∈ Operator.comparisons, entry.1.toList.head? ∈ signInitials.map some := by
    decide
  obtain ⟨c, initial, head⟩ := List.mem_map.mp (table entry sign)
  exact ⟨c, initial, head.symm⟩

theorem mem_comparisons_of_before {spelling sign : String} (isBefore : sign ∈ signsBefore spelling) :
    sign ∈ Operator.comparisons.map Prod.fst := by
  unfold signsBefore at isBefore
  split at isBefore
  · cases isBefore
  · exact (List.takeWhile_sublist _).subset isBefore

end Tables

section Written

variable {field : List Char} {row : List Char × Operator}

theorem FieldLike.not_initial (fieldLike : FieldLike field) {c : Char} (member : c ∈ field) :
    c ∉ initials := by
  intro initial
  obtain ⟨notBlank, notSign⟩ := fieldLike.2 c member
  rcases List.mem_cons.mp initial with rfl | sign
  · cases notBlank
  · exact notSign sign

/-- What begins with a blank or as a sign does not start in a field. -/
theorem FieldLike.startsNotIn (fieldLike : FieldLike field) {needle : List Char} {c : Char}
    (initial : c ∈ initials) (head : needle.head? = some c) (back : List Char) :
    StartsNotIn needle field back := by
  rintro before tail rfl nonempty start
  obtain ⟨d, later, rfl⟩ := List.exists_cons_of_ne_nil nonempty
  have here : d ∉ initials := fieldLike.not_initial (by simp)
  rw [eq_of_toLower_initial initial (start.head head)] at here
  exact here initial

theorem mem_needles_of_before {needle : List Char} {other : List Char × Operator}
    (earlier : other ∈ needlesBefore needle) : other ∈ needles :=
  (List.takeWhile_sublist _).subset earlier

theorem needle_ne_nil (known : row ∈ needles) : row.1 ≠ [] := by
  obtain ⟨c, _, head⟩ := initial_of_needle known
  rintro empty
  rw [empty] at head
  cases head

/-- A sign does not start at the blank in front of it. -/
theorem lead_startsNotIn (known : row ∈ needles) (back : List Char) :
    StartsNotIn row.1 (lead row.1) back := by
  obtain ⟨c, initial, head⟩ := initial_of_needle known
  intro before tail split nonempty start
  by_cases word : row.1.head? = some ' '
  · rw [lead, if_pos word] at split
    exact nonempty (List.append_eq_nil_iff.mp split.symm).2
  · rw [lead, if_neg word] at split
    obtain rfl : tail = [' '] := by
      rcases List.singleton_eq_append_iff.mp split with ⟨_, only⟩ | ⟨_, none⟩
      · exact only
      · exact absurd none nonempty
    have blank : ' ' = c := eq_of_toLower_initial initial (start.head head)
    rw [head, ← blank] at word
    exact word rfl

/-- The blank in front of a sign is no part of the field. -/
theorem trim_append_lead (start : ∃ c ∈ field.head?, isBlank c = false)
    (stop : ∃ c ∈ field.getLast?, isBlank c = false) (needle : List Char) :
    trim (field ++ lead needle) = field := by
  have blanks : trimEnd (lead needle) = [] := by
    unfold lead
    split <;> decide
  rw [trim_append start stop, blanks, List.append_nil]

theorem written_startsNotIn (fieldLike : FieldLike field) {needle : List Char} {c : Char}
    (initial : c ∈ initials) (head : needle.head? = some c) (bars : Bars (lead row.1 ++ row.1) needle)
    (value : List Char) : StartsNotIn needle (field ++ (lead row.1 ++ row.1)) (' ' :: value) :=
  (fieldLike.startsNotIn initial head _).append (bars.startsNotIn value)

/-- What does not start in the operator of a written expression, nor in the field, occurs in the value
or not at all. -/
theorem occurs_of_written (fieldLike : FieldLike field) {needle : List Char} {c : Char}
    (initial : c ∈ initials) (head : needle.head? = some c) (bars : Bars (lead row.1 ++ row.1) needle)
    {value : List Char} (occurs : Occurs needle (field ++ (lead row.1 ++ row.1) ++ ' ' :: value)) :
    Occurs needle (' ' :: value) :=
  occurs_of_append occurs (written_startsNotIn fieldLike initial head bars value)

/-- A sign that occurs in a text behind a blank occurs in the text. -/
theorem occurs_of_blank {spelling sign : String} (isBefore : sign ∈ signsBefore spelling)
    {cs : List Char} (occurs : Occurs sign.toList (' ' :: cs)) : Occurs sign.toList cs := by
  rcases occurs_cons_iff.mp occurs with start | later
  · exfalso
    obtain ⟨entry, isSign, rfl⟩ := List.mem_map.mp (mem_comparisons_of_before isBefore)
    obtain ⟨c, member, head⟩ := initial_of_sign isSign
    have blank : ' ' = c := eq_of_toLower_initial (List.mem_cons_of_mem _ member) (start.head head)
    rw [← blank] at member
    exact absurd member (by decide)
  · exact later

end Written

section First

variable {cs : List Char} {row : List Char × Operator}

def hit (cs : List Char) (row : List Char × Operator) : Option OperatorMatch :=
  (find? row.1 cs).map (OperatorMatch.mk row.2)

theorem operator?_eq (cs : List Char) : operator? cs = needles.findSome? (hit cs) := rfl

/-- The operator in a text stands where the first row of the tables that occurs is found. -/
theorem operator?_eq_some_iff {m : OperatorMatch} :
    operator? cs = some m ↔ ∃ row ∈ needles, row.2 = m.operator ∧ find? row.1 cs = some m.place ∧
      ∀ other ∈ needlesBefore row.1, ¬Occurs other.1 cs := by
  constructor
  · intro first
    obtain ⟨before, row, later, split, here, missed⟩ := List.findSome?_eq_some_iff.mp first
    obtain ⟨place, found, rfl⟩ := Option.map_eq_some_iff.mp here
    have others : ∀ other ∈ before, find? other.1 cs = none :=
      fun other earlier => Option.map_eq_none_iff.mp (missed other earlier)
    have known : row ∈ needles := by simp [split]
    have unequal : ∀ other ∈ before, decide (other.1 ≠ row.1) = true := by
      intro other earlier
      rw [decide_eq_true_iff]
      intro same
      have nowhere := others other earlier
      rw [same, found] at nowhere
      cases nowhere
    have isBefore : needlesBefore row.1 = before := by
      rw [needlesBefore, split, List.takeWhile_append_of_pos unequal]
      simp
    refine ⟨row, known, rfl, found, fun other earlier => ?_⟩
    rw [isBefore] at earlier
    have inTable : other ∈ needles := by simp [split, earlier]
    exact (find?_eq_none_iff (needle_ne_nil inTable)).mp (others other earlier)
  · rintro ⟨row, known, operator, found, others⟩
    obtain ⟨later, _, split⟩ := needles_split row known
    have before : (needlesBefore row.1).findSome? (hit cs) = none := by
      rw [List.findSome?_eq_none_iff]
      intro other earlier
      rw [hit, Option.map_eq_none_iff,
        find?_eq_none_iff (needle_ne_nil (mem_needles_of_before earlier))]
      exact others other earlier
    rw [operator?_eq, split, List.findSome?_append, before, List.findSome?_cons]
    simp [hit, found, operator]

/-- The negated list operator is looked for before all others. -/
theorem operator?_negated (occurs : Occurs " NOT IN".toList cs) :
    ∃ m, operator? cs = some m ∧ m.operator = .notInList := by
  have first : (" NOT IN".toList, Operator.notInList) ∈ needles ∧ needlesBefore " NOT IN".toList = [] := by
    simp only [needlesBefore, needles_eq]
    decide
  cases found : find? " NOT IN".toList cs with
  | none => exact absurd occurs ((find?_eq_none_iff (by decide)).mp found)
  | some place =>
    refine ⟨⟨.notInList, place⟩, operator?_eq_some_iff.mpr ⟨_, first.1, rfl, found, ?_⟩, rfl⟩
    rw [first.2]
    intro other none
    cases none

/-- An operator is found where its spelling stands, if it stands nowhere before and nothing that is
looked for before it occurs. -/
theorem operator?_append {front back : List Char} (known : row ∈ needles)
    (own : StartsNotIn row.1 front (row.1 ++ back))
    (others : ∀ other ∈ needlesBefore row.1, ¬Occurs other.1 (front ++ (row.1 ++ back))) :
    operator? (front ++ (row.1 ++ back)) = some ⟨row.2, ⟨front, row.1, back⟩⟩ :=
  operator?_eq_some_iff.mpr
    ⟨row, known, rfl, find?_append (needle_ne_nil known) (sameText_refl _) own, others⟩

end First

end FilterQuery.Expression
