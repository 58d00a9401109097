import FilterQuery.Expression.Parse
import FilterQuery.Proofs.Expression.Needles
import FilterQuery.Proofs.Outcome
import FilterQuery.Proofs.Value.Display

/-!
Conditions read back from the text they are shown as. Main statement: a condition that was read comes
back, with its value as `Value.reread` has it, unless its operator is read as part of another together
with the end of the field (`Condition.parse_display_iff`).
-/
namespace FilterQuery

open Text Expression Decimal

namespace Expression

/-- The text ends in a blank and the word with which a list operator is negated. -/
def endsInNot (field : List Char) : Bool := sameText " NOT".toList (field.drop (field.length - 4))

theorem endsInNot_iff {field : List Char} :
    endsInNot field ↔ ∃ front word, field = front ++ word ∧ sameText " NOT".toList word := by
  constructor
  · intro ends
    exact ⟨_, _, (List.take_append_drop _ field).symm, ends⟩
  · rintro ⟨front, word, rfl, same⟩
    have size : word.length = 4 := (length_eq_of_sameText same).symm
    rw [endsInNot, List.length_append, size, Nat.add_sub_cancel, List.drop_left]
    exact same

section Values

variable {row : List Char × Operator} {v : Value}

theorem not_occurs_numeral (known : row ∈ needles) {shown : String} (numeral : Numeral shown) :
    ¬Occurs row.1 (' ' :: shown.toList) := by
  intro occurs
  obtain ⟨c, member, notBlank, notMinus, notPoint, notDigit⟩ := letter_of_needle row known
  obtain ⟨d, inside, same⟩ := occurs.mem member
  rcases List.mem_cons.mp inside with rfl | shownChar
  · exact notBlank same.symm
  · have plain := numeral.mem shownChar
    rw [(Value.plain_of_numeral plain).1] at same
    rw [same] at plain
    rcases plain with digit | minus | point
    · rw [notDigit] at digit
      cases digit
    · exact notMinus minus
    · exact notPoint point

theorem not_occurs_around (known : row ∈ needles) {mark : Char} (isMark : mark ∈ ['\'', '(', ')', ','])
    {front back : List Char} (inFront : ¬Occurs row.1 front) (behind : ¬Occurs row.1 back) :
    ¬Occurs row.1 (front ++ mark :: back) := by
  intro occurs
  rcases occurs_of_split (needle_ne_nil known) (marks_outside row known mark isMark) occurs with one | other
  · exact inFront one
  · exact behind other

theorem not_occurs_scalar (known : row ∈ needles) (scalar : v.IsScalar)
    (free : ∀ s ∈ v.scalarTexts, ¬Occurs row.1 s.toList) : ¬Occurs row.1 (' ' :: v.display.toList) := by
  rcases Value.display_cases scalar with keyword | numeral | ⟨s, rfl⟩
  · exact not_occurs_keyword row known _ (List.mem_cons_of_mem _ keyword)
  · exact not_occurs_numeral known numeral
  · have blank := not_occurs_keyword row known "" (by decide)
    have inside := free s (by simp [Value.scalarTexts])
    rw [Value.display_text]
    exact not_occurs_around known (by decide) blank
      (not_occurs_around known (by decide) inside (not_occurs_nil (needle_ne_nil known)))

theorem not_occurs_items (known : row ∈ needles) {items : List Value} (scalar : ∀ item ∈ items, item.IsScalar)
    (free : ∀ item ∈ items, ∀ s ∈ item.scalarTexts, ¬Occurs row.1 s.toList) :
    ¬Occurs row.1 (' ' :: (Value.displayItems items).toList) := by
  induction items with
  | nil => exact not_occurs_keyword row known "" (by decide)
  | cons first items ih =>
    have own := not_occurs_scalar known (scalar first List.mem_cons_self) (free first List.mem_cons_self)
    have others := ih (fun item member => scalar item (List.mem_cons_of_mem _ member))
      fun item member => free item (List.mem_cons_of_mem _ member)
    cases items with
    | nil => exact own
    | cons second items =>
      have shape : ' ' :: (Value.displayItems (first :: second :: items)).toList =
          (' ' :: first.display.toList) ++ ',' :: ' ' :: (Value.displayItems (second :: items)).toList := by
        simp [Value.displayItems]
      rw [shape]
      exact not_occurs_around known (by decide) own others

/-- No operator occurs in a value that is shown, unless it occurs in one of the texts. -/
theorem not_occurs_display (known : row ∈ needles) (readable : v.Readable)
    (free : ∀ s ∈ v.texts, ¬Occurs row.1 s.toList) : ¬Occurs row.1 (' ' :: v.display.toList) := by
  rcases readable.cases with scalar | ⟨items, rfl, each⟩
  · exact not_occurs_scalar known scalar (scalar.texts_eq ▸ free)
  · have blank := not_occurs_keyword row known "" (by decide)
    have inItems := not_occurs_items known (fun item member => (each item member).1)
      fun item member s isText => free s (List.mem_flatMap.mpr ⟨item, member, isText⟩)
    rw [Value.display_list]
    exact not_occurs_around known (by decide) blank (not_occurs_around known (by decide)
      (fun occurs => inItems (occurs.prepend [' '])) (not_occurs_nil (needle_ne_nil known)))

end Values

section Fields

variable {field back : List Char} {shown other : List Char × Operator}

/-- What does not occur in a field does not start in it where it is shown before an operator, unless a
negated list operator comes about. -/
theorem startsNotIn_field (known : shown ∈ needles) (earlier : other ∈ shown :: needlesBefore shown.1)
    (free : ¬Occurs other.1 field) (apart : ¬(shown.2 = .inList ∧ endsInNot field)) :
    StartsNotIn other.1 field (lead shown.1 ++ shown.1 ++ back) := by
  rintro before tail rfl nonempty start
  rcases starts_append_cases start with inside | ⟨cut, rest, whole, some, same, follows⟩
  · exact free ⟨before, tail, rfl, inside⟩
  · have proper : rest ≠ other.1 := by
      intro all
      have size := congrArg List.length whole
      have cutSize := length_eq_of_sameText same
      have positive := List.length_pos_iff.mpr nonempty
      rw [all, List.length_append] at size
      omega
    have isRest : rest ∈ other.1.tails := by
      rw [List.mem_tails, whole]
      exact List.suffix_append cut rest
    rcases not_starts_rest shown known other earlier rest isRest some proper with
      ⟨isList, negated⟩ | ⟨notRest, notShown⟩
    · rw [negated] at whole
      have word := List.append_cancel_right whole
      rw [← word] at same
      exact apart ⟨isList, endsInNot_iff.mpr ⟨before, tail, rfl, same⟩⟩
    · rcases starts_append follows with restFirst | shownFirst
      · exact notRest restFirst
      · exact notShown shownFirst

end Fields

section Shown

variable {cs back : List Char} {m : OperatorMatch}

/-- A word behind a blank has something in front of it in a text without blanks at its start. -/
theorem trim_before_ne_nil {needle : List Char} {o : Occurrence} (trimmed : trim cs = cs)
    (found : find? needle cs = some o) (word : needle.head? = some ' ') : trim o.before ≠ [] := by
  obtain ⟨whole, same⟩ := find?_found found
  have start := head?_trim cs
  rw [trimmed, ← whole] at start
  cases shape : o.before with
  | nil =>
    intro _
    have starts : Starts needle o.found := ⟨o.found, [], (List.append_nil _).symm, same⟩
    cases spelled : o.found with
    | nil =>
      have size := length_eq_of_sameText same
      rw [spelled, List.length_nil, List.length_eq_zero_iff] at size
      rw [size] at word
      cases word
    | cons d later =>
      rw [spelled] at starts
      have blank : d = ' ' := eq_of_toLower_eq (d := ' ') (starts.head word) rfl
      rw [shape, spelled, blank] at start
      exact absurd (start ' ' rfl) (by decide)
  | cons c more =>
    rw [shape] at start
    rw [trim_cons (start c rfl)]
    exact List.cons_ne_nil _ _

/-- The row that the operator of a text is shown as: neither it nor what is looked for before it occurs in
the field. -/
theorem exists_shown (first : operator? cs = some m) (trimmed : trim cs = cs) :
    ∃ shown ∈ needles, shown.2 = m.operator ∧
      lead shown.1 ++ shown.1 = ' ' :: m.operator.text.toList ∧
      (m.field = [] → lead shown.1 = [' ']) ∧
      (∀ other ∈ needlesBefore shown.1, ¬Occurs other.1 cs) ∧
      ∀ other ∈ shown :: needlesBefore shown.1, ¬Occurs other.1 m.field := by
  obtain ⟨row, inTable, operator, placed, others⟩ := operator?_eq_some_iff.mp first
  obtain ⟨shown, known, same, spelled, leads, which, fewer⟩ := shown_of_row row inTable
  have absent : ∀ other ∈ needlesBefore shown.1, ¬Occurs other.1 cs :=
    fun other earlier => others other (fewer other earlier)
  have inText : m.place.before <:+: cs := by
    rw [← (find?_found placed).1, List.append_assoc]
    exact (List.prefix_append _ _).isInfix
  have own : ¬Occurs shown.1 m.place.before := by
    rcases which with rfl | earlier
    · exact (find?_first placed).not_occurs (needle_ne_nil known)
    · exact fun occurs => others shown earlier (occurs.of_isInfix inText)
  have inBefore : m.field <:+: m.place.before := trim_isInfix _
  refine ⟨shown, known, same.trans operator, operator ▸ spelled, fun empty => ?_, absent, ?_⟩
  · rw [leads, lead]
    exact if_neg fun word => trim_before_ne_nil trimmed placed word empty
  · intro other member occurs
    have inside := occurs.of_isInfix inBefore
    rcases List.mem_cons.mp member with rfl | earlier
    · exact own inside
    · exact absent other earlier (inside.of_isInfix inText)

theorem getLast?_shown {shown : List Char × Operator} (known : shown ∈ needles)
    (stop : ∀ c ∈ back.getLast?, isBlank c = false) :
    ∃ c ∈ (shown.1 ++ back).getLast?, isBlank c = false := by
  obtain ⟨last, atEnd, plain⟩ := last_of_needle known
  rw [List.getLast?_append, atEnd]
  cases shape : back.getLast? with
  | none => exact ⟨last, rfl, plain⟩
  | some c => exact ⟨c, rfl, stop c shape⟩

/-- The blank between a field and a sign is taken away if the field is empty. -/
theorem trim_shown {shown : List Char × Operator} {field : List Char} (known : shown ∈ needles)
    (trimmed : trim field = field) (sign : field = [] → lead shown.1 = [' '])
    (stop : ∀ c ∈ back.getLast?, isBlank c = false) :
    ∃ front, trim (field ++ (lead shown.1 ++ shown.1 ++ back)) = front ++ (shown.1 ++ back) ∧
      trim front = field ∧ (front = field ++ lead shown.1 ∨ front = []) := by
  obtain ⟨last, atEnd, plain⟩ := getLast?_shown known stop
  by_cases empty : field = []
  · obtain ⟨c, initial, head⟩ := initial_of_needle known
    have notBlank : isBlank c = false := by
      refine (plain_of_initial c initial).resolve_left fun blank => ?_
      have word := sign empty
      rw [lead, head, blank, if_pos rfl] at word
      cases word
    have kept : trim (shown.1 ++ back) = shown.1 ++ back := by
      apply trim_eq_self
      · rw [List.head?_append_of_ne_nil _ (needle_ne_nil known), head]
        simpa using notBlank
      · rw [atEnd]
        simpa using plain
    refine ⟨[], ?_, by rw [empty]; rfl, .inr rfl⟩
    rw [empty, sign empty, List.nil_append, List.append_assoc, List.singleton_append,
      trim_blank_cons (by decide), List.nil_append, kept]
  · have first := List.head?_eq_some_head empty
    have final := List.getLast?_eq_some_getLast empty
    have start := head?_trim field
    have stop := getLast?_trim field
    rw [trimmed] at start stop
    refine ⟨field ++ lead shown.1, ?_, ?_, .inl rfl⟩
    · have ends : (lead shown.1 ++ (shown.1 ++ back)).getLast? = some last := by
        rw [List.getLast?_append, atEnd, Option.some_or]
      rw [List.append_assoc, trim_append_self trimmed empty ⟨last, ends, plain⟩, List.append_assoc]
    · exact trim_append_lead ⟨_, first, start _ first⟩ ⟨_, final, stop _ final⟩ _

/-- The operator of a text is found again where its field is shown with it and with a value in which
nothing occurs that did not occur before. -/
theorem operator?_shown (first : operator? cs = some m) (trimmed : trim cs = cs)
    (apart : ¬(m.operator = .inList ∧ endsInNot m.field))
    (free : ∀ row ∈ needles, ¬Occurs row.1 cs → ¬Occurs row.1 back)
    (start : ∀ c ∈ back.head?, c = ' ') (stop : ∀ c ∈ back.getLast?, isBlank c = false) :
    ∃ found, operator? (trim (m.field ++ ' ' :: (m.operator.text.toList ++ back))) = some found ∧
      found.operator = m.operator ∧ found.field = m.field ∧ found.rest = trim back := by
  obtain ⟨shown, known, operator, spelled, sign, absent, inField⟩ := exists_shown first trimmed
  have whole : m.field ++ ' ' :: (m.operator.text.toList ++ back) =
      m.field ++ (lead shown.1 ++ shown.1 ++ back) := by
    rw [spelled, List.cons_append]
  have starts : ∀ other ∈ shown :: needlesBefore shown.1,
      StartsNotIn other.1 m.field (lead shown.1 ++ shown.1 ++ back) :=
    fun other member => startsNotIn_field known member (inField other member) (operator ▸ apart)
  have fieldTrimmed : trim m.field = m.field := trim_trim _
  obtain ⟨front, text, field, which⟩ := trim_shown known fieldTrimmed sign stop
  have own : StartsNotIn shown.1 front (shown.1 ++ back) := by
    rcases which with rfl | rfl
    · have inFront := starts shown List.mem_cons_self
      rw [List.append_assoc] at inFront
      exact inFront.append (lead_startsNotIn known _)
    · intro before tail shape nonempty
      exact absurd (List.append_eq_nil_iff.mp shape.symm).2 nonempty
  have others : ∀ other ∈ needlesBefore shown.1, ¬Occurs other.1 (front ++ (shown.1 ++ back)) := by
    intro other earlier occurs
    have bars := bars_before shown known other earlier
    have inOperator : StartsNotIn other.1 (lead shown.1 ++ shown.1) back := by
      cases back with
      | nil => exact (bars.startsNotIn []).of_append
      | cons c tail =>
        rw [start c rfl]
        exact bars.startsNotIn tail
    have inWhole := occurs.of_isInfix (text ▸ trim_isInfix _)
    have behind := occurs_of_append inWhole (starts other (List.mem_cons_of_mem _ earlier))
    exact free other (mem_needles_of_before earlier) (absent other earlier) (occurs_of_append behind inOperator)
  rw [whole, text]
  exact ⟨_, operator?_append known own others, operator, field, rfl⟩

end Shown

end Expression

section Parse

theorem Condition.ofChars_eq_ok_iff {cs : List Char} {c : Condition} :
    Condition.ofChars cs = .ok c ↔ ∃ m, operator? (trim cs) = some m ∧
      c = ⟨String.ofList m.field, m.operator,
        if m.operator.isNullCheck then .null else Value.ofToken m.rest, String.ofList (trim cs)⟩ := by
  rw [Condition.ofChars]
  cases first : operator? (trim cs) with
  | none =>
    constructor
    · intro failed
      cases failed
    · rintro ⟨m, none, _⟩
      cases none
  | some m =>
    constructor
    · intro read
      cases read
      exact ⟨m, rfl, rfl⟩
    · rintro ⟨other, same, rfl⟩
      cases same
      rfl

/-- What is shown of a condition behind the operator. -/
def Condition.valueText (c : Condition) : List Char :=
  if c.operator.isNullCheck then [] else ' ' :: c.value.display.toList

theorem Condition.display_eq (c : Condition) :
    c.display.toList = c.field.toList ++ ' ' :: (c.operator.text.toList ++ c.valueText) := by
  rw [Condition.display, Condition.valueText]
  split <;> simp

/-- A list operator behind a field that ends in the word NOT is read as negated. -/
theorem Condition.occurs_negated {c : Condition} (isList : c.operator = .inList)
    (negated : endsInNot c.field.toList) (trimmed : trim c.field.toList = c.field.toList)
    (stop : ∀ d ∈ c.valueText.getLast?, isBlank d = false) : Occurs " NOT IN".toList (trim c.display.toList) := by
  obtain ⟨front, word, parts, isNot⟩ := endsInNot_iff.mp negated
  have shape : c.display.toList = c.field.toList ++ (" IN".toList ++ c.valueText) := by
    rw [c.display_eq, isList]
    rfl
  have nonempty : c.field.toList ≠ [] := by
    intro empty
    rw [empty] at parts
    rw [(List.append_eq_nil_iff.mp parts.symm).2] at isNot
    cases length_eq_of_sameText isNot
  have known : (" IN".toList, Operator.inList) ∈ needles := by decide +kernel
  rw [shape, trim_append_self trimmed nonempty (getLast?_shown known stop), parts, List.append_assoc]
  refine ⟨front, _, rfl, word ++ " IN".toList, c.valueText, (List.append_assoc _ _ _).symm, ?_⟩
  have whole : " NOT IN".toList = " NOT".toList ++ " IN".toList := rfl
  rw [whole, sameText_append (length_eq_of_sameText isNot)]
  exact ⟨isNot, sameText_refl _⟩

theorem Condition.head?_valueText (c : Condition) : ∀ d ∈ c.valueText.head?, d = ' ' := by
  rw [Condition.valueText]
  split <;> simp [eq_comm]

/-- No operator occurs in what is shown behind the operator, unless it occurred in the text that was
read. -/
theorem Condition.valueText_of_read {cs : List Char} {c : Condition} (read : Condition.ofChars cs = .ok c) :
    (∀ d ∈ c.valueText.getLast?, isBlank d = false) ∧
      ∀ row ∈ needles, ¬Occurs row.1 (trim cs) → ¬Occurs row.1 c.valueText := by
  obtain ⟨m, first, rfl⟩ := Condition.ofChars_eq_ok_iff.mp read
  by_cases check : m.operator.isNullCheck = true
  · have none : Condition.valueText ⟨String.ofList m.field, m.operator,
        if m.operator.isNullCheck then .null else Value.ofToken m.rest, String.ofList (trim cs)⟩ = [] :=
      if_pos check
    rw [none]
    exact ⟨by simp, fun row known _ => not_occurs_nil (needle_ne_nil known)⟩
  · have shown : Condition.valueText ⟨String.ofList m.field, m.operator,
        if m.operator.isNullCheck then .null else Value.ofToken m.rest, String.ofList (trim cs)⟩ =
          ' ' :: (Value.ofToken m.rest).display.toList := by
      rw [Condition.valueText]
      simp only [if_neg check]
    obtain ⟨readable, stands⟩ := Value.ofToken_readable m.rest
    have inRest : m.rest <:+: m.place.after := trim_isInfix _
    have inText : m.place.after <:+: trim cs := by
      obtain ⟨row, _, _, placed, _⟩ := operator?_eq_some_iff.mp first
      rw [← (find?_found placed).1]
      exact (List.suffix_append _ _).isInfix
    rw [shown]
    constructor
    · obtain ⟨last, atEnd, plain⟩ := Value.display_last readable
      intro d member
      rw [← List.singleton_append, List.getLast?_append, atEnd] at member
      cases member
      exact plain
    · intro row known absent
      refine not_occurs_display known readable fun s isText occurs => ?_
      exact absent (occurs.of_isInfix ((stands s isText).trans (inRest.trans inText)))

/-- The value comes back from what is shown behind the operator. -/
theorem Condition.reread_valueText {cs : List Char} {c : Condition} (read : Condition.ofChars cs = .ok c) :
    (if c.operator.isNullCheck then .null else Value.ofToken (trim c.valueText)) = c.value.reread := by
  obtain ⟨m, first, rfl⟩ := Condition.ofChars_eq_ok_iff.mp read
  rw [Condition.valueText]
  split
  · rfl
  · obtain ⟨readable, _⟩ := Value.ofToken_readable m.rest
    rw [trim_blank_cons (by decide), Value.ofToken_trim]
    exact Value.ofToken_display readable

/-- A condition that was read comes back from the text it is shown as, with the same field and operator,
unless a field that ends in the word NOT stands before a list operator that is not negated. -/
theorem Condition.parse_display_iff {e : String} {c : Condition} (read : Condition.parse e = .ok c) :
    Condition.parse c.display =
        .ok { c with value := c.value.reread, raw := String.ofList (trim c.display.toList) } ↔
      ¬(c.operator = .inList ∧ endsInNot c.field.toList) := by
  obtain ⟨m, first, shape⟩ := Condition.ofChars_eq_ok_iff.mp read
  have operator : c.operator = m.operator := by rw [shape]
  have field : c.field.toList = m.field := by rw [shape, String.toList_ofList]
  rw [Condition.parse, Condition.ofChars_eq_ok_iff]
  constructor
  · rintro ⟨found, again, same⟩ ⟨isList, negated⟩
    have kept : c.operator = found.operator := congrArg Condition.operator same
    have trimmed : trim c.field.toList = c.field.toList := by
      rw [field]
      exact trim_trim _
    obtain ⟨other, here, other'⟩ := operator?_negated
      (Condition.occurs_negated isList negated trimmed (Condition.valueText_of_read read).1)
    cases again.symm.trans here
    rw [isList, other'] at kept
    cases kept
  · intro apart
    rw [operator, field] at apart
    obtain ⟨stop, free⟩ := Condition.valueText_of_read read
    obtain ⟨found, again, sameOperator, sameField, rest⟩ :=
      operator?_shown first (trim_trim _) apart free c.head?_valueText stop
    rw [← operator, ← field, ← Condition.display_eq] at again
    refine ⟨found, again, ?_⟩
    rw [sameField, sameOperator, rest, ← operator, ← field, String.ofList_toList,
      Condition.reread_valueText read]

/-- The spelling of the operator, the blanks and the quotes are not kept. -/
theorem Condition.parse_display_spelled :
    ∃ c x, Condition.parse "maker.size <> ( 4.0 , \"=\" )" = .ok c ∧
      c.value = .list [.float x, .text "="] ∧ c.display = "maker.size != (4, '=')" ∧
      Condition.parse c.display =
        .ok ⟨"maker.size", .neq, .list [.int 4, .text "="], "maker.size != (4, '=')"⟩ := by
  have read : Condition.parse "maker.size <> ( 4.0 , \"=\" )" = .ok ⟨"maker.size", .neq,
      .list [.float (.ofBits 0x4010000000000000), .text "="], "maker.size <> ( 4.0 , \"=\" )"⟩ :=
    eq_ok_of_toOption (by decide +kernel)
  refine ⟨_, _, read, rfl, by decide +kernel, ?_⟩
  rw [(Condition.parse_display_iff read).mpr (by simp)]
  exact congrArg Except.ok (by decide +kernel)

/-- The word NOT in front of the operator is taken for a part of it, and a large number is shown in fewer
digits than it has. -/
theorem Condition.parse_display_changed :
    (∃ c d, Condition.parse "x NOT  IN (1)" = .ok c ∧ (c.field, c.operator) = ("x NOT", .inList) ∧
      Condition.parse c.display = .ok d ∧ (d.field, d.operator) = ("x", .notInList)) ∧
    ∃ c d x, Condition.parse "x = 1234567890123456768.0" = .ok c ∧ c.value = .float x ∧
      x.toInt? = some 1234567890123456768 ∧
      Condition.parse c.display = .ok d ∧ d.value = .int 1234567890123456800 := by
  have negated : Condition.parse "x NOT  IN (1)" =
      .ok ⟨"x NOT", .inList, .list [.int 1], "x NOT  IN (1)"⟩ := eq_ok_of_toOption (by decide +kernel)
  have negated' : Condition.parse "x NOT IN (1)" =
      .ok ⟨"x", .notInList, .list [.int 1], "x NOT IN (1)"⟩ := eq_ok_of_toOption (by decide +kernel)
  have large : Condition.parse "x = 1234567890123456768.0" = .ok ⟨"x", .eq,
      .float (.ofBits 0x43b12210f47de981), "x = 1234567890123456768.0"⟩ :=
    eq_ok_of_toOption (by decide +kernel)
  have large' : Condition.parse "x = 1234567890123456800" =
      .ok ⟨"x", .eq, .int 1234567890123456800, "x = 1234567890123456800"⟩ :=
    eq_ok_of_toOption (by decide +kernel)
  have exact : (Binary64.ofBits 0x43b12210f47de981).toInt? = some 1234567890123456768 := by decide +kernel
  have display : Condition.display ⟨"x NOT", .inList, .list [.int 1], "x NOT  IN (1)"⟩ = "x NOT IN (1)" ∧
      Condition.display ⟨"x", .eq, .float (.ofBits 0x43b12210f47de981), "x = 1234567890123456768.0"⟩ =
        "x = 1234567890123456800" := by decide +kernel
  constructor
  · exact ⟨_, _, negated, rfl, (congrArg Condition.parse display.1).trans negated', rfl⟩
  · exact ⟨_, _, _, large, rfl, exact, (congrArg Condition.parse display.2).trans large', rfl⟩

end Parse

end FilterQuery
