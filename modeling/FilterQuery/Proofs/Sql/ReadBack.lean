import FilterQuery.Proofs.Decimal.Literal
import FilterQuery.Proofs.Sql.Compile
import FilterQuery.Proofs.Sql.Reader

/-!
Statements read back from their text. Each part of a statement is read back whatever follows it, as
long as what follows cannot be taken for more of the part.
-/
namespace FilterQuery.Sql

open Decimal

namespace Reader

variable {α : Type} {rest : List Char}

@[simp] theorem after_append (lead cs : List Char) (reader : Reader α) :
    after lead reader (lead ++ cs) = reader cs := by
  simp [after, List.dropPrefix?_append_of_beq]

theorem after_eq_none {lead cs : List Char} (reader : Reader α) (differ : ¬lead <+: cs) :
    after lead reader cs = none := by
  have nothing : cs.dropPrefix? lead = none := by
    rw [Option.eq_none_iff_forall_ne_some]
    intro tail found
    obtain ⟨front, shape, same⟩ := List.dropPrefix?_eq_some_iff.mp found
    exact differ ⟨tail, by rw [shape, eq_of_beq same]⟩
  simp [after, nothing]

/-- Neither text is the start of the other. -/
def Apart (first second : List Char) : Prop := ¬first <+: second ∧ ¬second <+: first

instance (first second : List Char) : Decidable (Apart first second) :=
  inferInstanceAs (Decidable (_ ∧ _))

theorem after_append_eq_none {lead other : List Char} (reader : Reader α) (apart : Apart lead other)
    (cs : List Char) : after lead reader (other ++ cs) = none := by
  refine after_eq_none reader fun start => ?_
  rcases List.prefix_or_prefix_of_prefix start (List.prefix_append other cs) with short | long
  · exact apart.1 short
  · exact apart.2 long

/-- Where no lead is the start of another, the lead that a text starts with decides. -/
theorem byLead_append {choices : List (List Char × Reader α)} {lead : List Char}
    (reader : Reader α) (apart : (choices.map Prod.fst).Pairwise Apart) (member : (lead, reader) ∈ choices)
    (cs : List Char) : byLead choices (lead ++ cs) = reader cs := by
  induction choices with
  | nil => cases member
  | cons choice choices ih =>
    obtain ⟨l, r⟩ := choice
    obtain ⟨first, rest⟩ := List.pairwise_cons.mp apart
    rw [byLead, List.findSome?_cons]
    rcases List.mem_cons.mp member with here | later
    · cases here
      rw [after_append]
      cases read : reader cs with
      | some _ => simp only [read]
      | none =>
        simp only [read]
        rw [List.findSome?_eq_none_iff]
        intro choice inside
        obtain ⟨forth, back⟩ := first choice.1 (List.mem_map_of_mem inside)
        exact after_append_eq_none choice.2 ⟨back, forth⟩ cs
    · rw [after_append_eq_none r (first lead (List.mem_map_of_mem later))]
      exact ih rest later

/-- Without a fitting lead nothing is read. -/
theorem byLead_eq_none {choices : List (List Char × Reader α)} {cs : List Char}
    (differ : ∀ choice ∈ choices, choice.1.head? ≠ cs.head? ∧ choice.1 ≠ []) :
    byLead choices cs = none := by
  rw [byLead, List.findSome?_eq_none_iff]
  rintro ⟨lead, reader⟩ member
  obtain ⟨head, nonempty⟩ := differ _ member
  refine after_eq_none reader fun ⟨tail, start⟩ => head ?_
  rw [← start]
  exact (List.head?_append_of_ne_nil lead nonempty).symm

/-- What is written one thing after another is read one thing after another, if each thing can be
followed by the next and the rest is not one more. -/
theorem many_flatMap {item : Reader α} {render : α → List Char} {as : List α}
    (Follows : List Char → Prop)
    (reads : ∀ a ∈ as, ∀ rest, Follows rest → item (render a ++ rest) = some (a, rest))
    (starts : ∀ a ∈ as, ∀ rest, Follows (render a ++ rest)) (written : ∀ a ∈ as, render a ≠ [])
    (follows : Follows rest) (stops : item rest = none) :
    many item (as.flatMap render ++ rest) = (as, rest) := by
  induction as with
  | nil => simp [many, stops]
  | cons a as ih =>
    have later := ih (fun b member => reads b (List.mem_cons_of_mem _ member))
      (fun b member => starts b (List.mem_cons_of_mem _ member))
      (fun b member => written b (List.mem_cons_of_mem _ member))
    have next : Follows (as.flatMap render ++ rest) := by
      cases as with
      | nil => exact follows
      | cons b as =>
        simp only [List.flatMap_cons, List.append_assoc]
        exact starts b (by simp) _
    have here := reads a List.mem_cons_self _ next
    -- `many` stops where nothing has been taken, so each thing has to be written with a character.
    have shorter : (as.flatMap render ++ rest).length <
        (render a ++ (as.flatMap render ++ rest)).length := by
      have positive := List.length_pos_iff.mpr (written a List.mem_cons_self)
      simp only [List.length_append]
      omega
    rw [List.flatMap_cons, List.append_assoc, many, here]
    simp only [shorter, if_true, later]

section Quotations

variable {quote : Char} {escapes : Bool}

theorem quotation_close (alone : rest.head? ≠ some quote) :
    quotation quote escapes (quote :: rest) = some ([], rest) := by
  cases rest with
  | nil => simp [quotation]
  | cons d rest =>
    have different : d ≠ quote := by simpa using alone
    simp [quotation, different]

theorem quotation_cons {c : Char} (notQuote : c ≠ quote) (plain : escapes = true → c ≠ '\\')
    (cs : List Char) :
    quotation quote escapes (c :: cs) = (quotation quote escapes cs).map (push c) := by
  have notEscape : (escapes && c == '\\') = false := by
    cases escapes <;> simp_all
  rw [quotation.eq_def]
  simp [notQuote, notEscape]

theorem quotation_plain {inner : List Char} (free : quote ∉ inner) (alone : rest.head? ≠ some quote) :
    quotation quote false (inner ++ quote :: rest) = some (inner, rest) := by
  induction inner with
  | nil => exact quotation_close alone
  | cons c inner ih =>
    simp only [List.mem_cons, not_or] at free
    rw [List.cons_append, quotation_cons (Ne.symm free.1) (by simp), ih free.2]
    rfl

theorem quotation_doubled (cs : List Char) (alone : rest.head? ≠ some '"') :
    quotation '"' false (doubled cs ++ '"' :: rest) = some (cs, rest) := by
  induction cs with
  | nil => exact quotation_close alone
  | cons c cs ih =>
    by_cases double : c = '"'
    · simp [doubled, quotation, double, ih, push]
    · simp only [doubled, beq_iff_eq, double, if_false, List.cons_append]
      rw [quotation_cons double (by simp), ih]
      rfl

theorem unescape?_of_escapeCode? {c code : Char} (escape : escapeCode? c = some code) :
    unescape? code = some c := by
  unfold escapeCode? at escape
  unfold unescape?
  split_ifs at escape
  all_goals
    cases escape
    simp_all

theorem ne_of_escapeCode?_eq_none {c : Char} (plain : escapeCode? c = none) : c ≠ '\'' ∧ c ≠ '\\' := by
  unfold escapeCode? at plain
  split_ifs at plain
  simp_all

theorem quotation_escaped (cs : List Char) (alone : rest.head? ≠ some '\'') :
    quotation '\'' true (escaped cs ++ '\'' :: rest) = some (cs, rest) := by
  induction cs with
  | nil => exact quotation_close alone
  | cons c cs ih =>
    cases escape : escapeCode? c with
    | some code => simp [escaped, escape, quotation, unescape?_of_escapeCode? escape, ih, push]
    | none =>
      obtain ⟨notQuote, notBackslash⟩ := ne_of_escapeCode?_eq_none escape
      simp only [escaped, escape, List.cons_append]
      rw [quotation_cons notQuote (fun _ => notBackslash), ih]
      rfl

/-- A text that is written without backslashes is written as it is, and has no quote in it. -/
theorem escaped_eq_self {cs : List Char} (plain : '\\' ∉ escaped cs) :
    escaped cs = cs ∧ '\'' ∉ cs := by
  induction cs with
  | nil => simp [escaped]
  | cons c cs ih =>
    cases escape : escapeCode? c with
    | some code => simp [escaped, escape] at plain
    | none =>
      simp only [escaped, escape, List.mem_cons, not_or] at plain ⊢
      obtain ⟨same, free⟩ := ih plain.2
      exact ⟨by rw [same], Ne.symm (ne_of_escapeCode?_eq_none escape).1, free⟩

theorem name_quotedName (n : String) (rest : List Char) (alone : rest.head? ≠ some '"') :
    name (quotedName n ++ rest) = some (n, rest) := by
  have written : quotedName n ++ rest = ['"'] ++ (doubled n.toList ++ '"' :: rest) := by
    simp [quotedName]
  rw [written, name, after_append]
  simp [map, quotation_doubled _ alone]

theorem text_quotedText (s : String) (alone : rest.head? ≠ some '\'') :
    text (quotedText s ++ rest) = some (s, rest) := by
  unfold text
  -- The mark stands where there is a backslash; a text without one has no quote that could end it.
  by_cases backslash : '\\' ∈ escaped s.toList
  · have written : quotedText s ++ rest = ['E', '\''] ++ (escaped s.toList ++ '\'' :: rest) := by
      simp [quotedText, backslash]
    rw [written, byLead_append _ (by decide) List.mem_cons_self]
    simp [map, quotation_escaped _ alone]
  · obtain ⟨same, free⟩ := escaped_eq_self backslash
    rw [same] at backslash
    have written : quotedText s ++ rest = ['\''] ++ (s.toList ++ '\'' :: rest) := by
      simp [quotedText, same, backslash]
    rw [written, byLead_append _ (by decide) (List.mem_cons_of_mem _ List.mem_cons_self)]
    simp [map, quotation_plain free alone]

end Quotations

end Reader

/-- A number is written as a decimal literal without an exponent. -/
def Literal.Readable : Literal → Prop
  | .number digits => Numeral digits
  | _ => True

/-- The numbers of a term are readable. -/
def Term.Readable : Term → Prop
  | .compare _ _ value => value.Readable
  | .isIn _ _ first others => first.Readable ∧ ∀ l ∈ others, l.Readable
  | _ => True

/-- What may follow a part of a statement: its end, or a character that goes on with no part. -/
def Ends (rest : List Char) : Prop := ∀ c ∈ rest.head?, c = ' ' ∨ c = ',' ∨ c = ')'

theorem Ends.head?_ne {rest : List Char} (ends : Ends rest) {c : Char}
    (other : c ≠ ' ' ∧ c ≠ ',' ∧ c ≠ ')') : rest.head? ≠ some c := by
  intro atHead
  rcases ends c atHead with blank | comma | parenthesis
  · exact other.1 blank
  · exact other.2.1 comma
  · exact other.2.2 parenthesis

theorem ends_blank (rest : List Char) : Ends (' ' :: rest) := by
  intro c atHead
  cases atHead
  exact .inl rfl

theorem ends_nil : Ends [] := by
  intro c atHead
  cases atHead

namespace Reader

variable {rest : List Char}

section Constants

theorem isNumberChar_of_numeral {digits : String} (numeral : Numeral digits) :
    ∀ c ∈ digits.toList, isNumberChar c = true := by
  intro c member
  rcases numeral.mem member with digit | rfl | rfl
  · simp [isNumberChar, digit]
  · decide
  · decide

theorem number_append {digits : String} (numeral : Numeral digits) (ends : Ends rest) :
    number (digits.toList ++ rest) = some (.number digits, rest) := by
  have inside := isNumberChar_of_numeral numeral
  have stop : ∀ c ∈ rest.head?, isNumberChar c = false := by
    intro c atHead
    rcases ends c atHead with rfl | rfl | rfl <;> decide
  have taken : (digits.toList ++ rest).takeWhile isNumberChar = digits.toList := by
    rw [List.takeWhile_append_of_pos inside]
    cases rest with
    | nil => simp
    | cons c rest => simp [stop c rfl]
  have dropped : (digits.toList ++ rest).dropWhile isNumberChar = rest := by
    rw [List.dropWhile_append_of_pos inside]
    cases rest with
    | nil => rfl
    | cons c rest => simp [stop c rfl]
  obtain ⟨l, written, _, text⟩ := numeral
  simp only [number, taken, dropped]
  rw [text, Decimal.Literal.read?_render written, ← text]
  simp

theorem head?_numeral {digits : String} (numeral : Numeral digits) :
    ∀ c ∈ (digits.toList ++ rest).head?, isNumberChar c = true := by
  intro c atHead
  rw [List.head?_append_of_ne_nil _ numeral.ne_nil] at atHead
  exact isNumberChar_of_numeral numeral c (List.mem_of_head? atHead)

theorem head?_quotedText (s : String) :
    ∀ c ∈ (quotedText s ++ rest).head?, c = 'E' ∨ c = '\'' := by
  intro c atHead
  simp only [quotedText] at atHead
  split at atHead
  · exact .inl (by simpa using Eq.symm atHead)
  · exact .inr (by simpa using Eq.symm atHead)

/-- What does not start like a key word is a text or a number. -/
theorem keyword_eq_none {cs : List Char} {p : Char → Prop} (heads : ∀ c ∈ cs.head?, p c)
    (other : ¬p 'N' ∧ ¬p 'T' ∧ ¬p 'F') : keyword cs = none := by
  refine byLead_eq_none fun choice member => ?_
  simp only [List.mem_cons, List.not_mem_nil, or_false] at member
  rcases member with rfl | rfl | rfl
  · exact ⟨fun atHead => other.1 (heads _ atHead.symm), by simp⟩
  · exact ⟨fun atHead => other.2.1 (heads _ atHead.symm), by simp⟩
  · exact ⟨fun atHead => other.2.2 (heads _ atHead.symm), by simp⟩

theorem text_eq_none {cs : List Char} {p : Char → Prop} (heads : ∀ c ∈ cs.head?, p c)
    (other : ¬p 'E' ∧ ¬p '\'') : text cs = none := by
  refine byLead_eq_none fun choice member => ?_
  simp only [List.mem_cons, List.not_mem_nil, or_false] at member
  rcases member with rfl | rfl
  · exact ⟨fun atHead => other.1 (heads _ atHead.symm), by simp⟩
  · exact ⟨fun atHead => other.2 (heads _ atHead.symm), by simp⟩

theorem keyword_append {lead : List Char} {l : Literal} (member : (lead, done l) ∈ [
      ("NULL".toList, done Literal.null), ("TRUE".toList, done (.bool true)),
      ("FALSE".toList, done (.bool false))]) :
    literal (lead ++ rest) = some (l, rest) := by
  rw [literal, keyword, byLead_append _ (by decide) member]
  rfl

theorem literal_render {l : Literal} (readable : l.Readable) (ends : Ends rest) :
    literal (l.render ++ rest) = some (l, rest) := by
  -- The first characters of key words, texts and numbers keep the three apart.
  cases l with
  | null => exact keyword_append (by simp [Literal.render])
  | bool b => cases b <;> exact keyword_append (by simp [Literal.render])
  | number digits =>
    have heads : ∀ c ∈ (digits.toList ++ rest).head?, isNumberChar c = true := head?_numeral readable
    rw [Literal.render, literal, keyword_eq_none heads (by decide), map,
      text_eq_none heads (by decide), number_append readable ends]
    rfl
  | text s =>
    have read := text_quotedText s (ends.head?_ne (c := '\'') (by decide))
    rw [Literal.render, literal, keyword_eq_none (head?_quotedText s) (by decide), map, read]
    rfl

end Constants

section Terms

theorem column_render (c : Column) (rest : List Char) (alone : rest.head? ≠ some '"') :
    column (c.render ++ rest) = some (c, rest) := by
  have written : c.render ++ rest = quotedName c.table ++ (['.'] ++ (quotedName c.name ++ rest)) := by
    simp [Column.render]
  rw [written, column, name_quotedName c.table _ (by simp)]
  simp only [Option.bind_eq_bind, Option.bind_some, after_append, name_quotedName c.name rest alone]

theorem renderOthers_eq (others : List Literal) :
    Term.renderOthers others = others.flatMap fun l => ", ".toList ++ l.render := by
  induction others with
  | nil => rfl
  | cons l others ih => simp only [Term.renderOthers, ih, List.flatMap_cons]

theorem ends_renderOthers (others : List Literal) : Ends (Term.renderOthers others ++ ')' :: rest) := by
  cases others with
  | nil =>
    intro c atHead
    cases atHead
    exact .inr (.inr rfl)
  | cons l others =>
    intro c atHead
    cases atHead
    exact .inr (.inl rfl)

theorem many_renderOthers {others : List Literal} (readable : ∀ l ∈ others, l.Readable) :
    many (after ", ".toList literal) (Term.renderOthers others ++ ')' :: rest) =
      (others, ')' :: rest) := by
  rw [renderOthers_eq]
  refine many_flatMap Ends ?_ ?_ (by simp) (ends_renderOthers []) rfl
  · intro l member rest ends
    rw [List.append_assoc, after_append]
    exact literal_render (readable l member) ends
  · intro l _ rest c atHead
    cases atHead
    exact .inr (.inl rfl)

theorem list_render {column : Column} {negated : Bool} {first : Literal} {others : List Literal}
    (firstReadable : first.Readable) (othersReadable : ∀ l ∈ others, l.Readable) :
    list column negated (first.render ++ (Term.renderOthers others ++ ')' :: rest)) =
      some (.isIn column negated first others, rest) := by
  rw [list, literal_render firstReadable (ends_renderOthers others)]
  simp only [Option.bind_eq_bind, Option.bind_some, many_renderOthers othersReadable]
  exact after_append [')'] rest _

/-- What a term says of its column is read by the lead that it starts with. -/
theorem test_append {column : Column} {lead : List Char} (reader : Reader Term)
    (member : (lead, reader) ∈ tests column) (cs : List Char) :
    test column (lead ++ cs) = reader cs := by
  have leads : (tests column).map Prod.fst = (tests ⟨"", ""⟩).map Prod.fst := rfl
  refine byLead_append reader ?_ member cs
  rw [leads]
  decide

/-- A term on a column is read back if the column is and what is said of the column is. -/
theorem term_of_test {c : Column} {said : List Char} {t : Term} (alone : said.head? ≠ some '"')
    (read : test c said = some (t, rest)) : term (c.render ++ said) = some (t, rest) := by
  have quoted : (c.render ++ said).head? = some '"' := rfl
  have notConstant : constantTerm (c.render ++ said) = none := by
    refine byLead_eq_none fun choice member => ?_
    simp only [List.mem_cons, List.not_mem_nil, or_false] at member
    rw [quoted]
    rcases member with rfl | rfl <;> decide
  rw [term, notConstant, columnTerm, column_render c _ alone]
  simpa using read

theorem term_render {t : Term} (readable : t.Readable) (ends : Ends rest) :
    term (t.render ++ rest) = some (t, rest) := by
  cases t with
  | isNull column negated =>
    rw [Term.render, List.append_assoc]
    cases negated
    · refine term_of_test (by simp) ?_
      rw [if_neg (by decide), test_append (done (.isNull column false)) (by simp [tests])]
      rfl
    · refine term_of_test (by simp) ?_
      rw [if_pos rfl, test_append (done (.isNull column true)) (by simp [tests])]
      rfl
  | compare column comparison value =>
    have written : (Term.compare column comparison value).render ++ rest =
        column.render ++ (' ' :: comparison.sign ++ [' '] ++ (value.render ++ rest)) := by
      simp [Term.render]
    rw [written]
    refine term_of_test (by simp) ?_
    rw [test_append (map (.compare column comparison) literal), map,
      literal_render readable ends]
    · rfl
    · simp only [tests, List.mem_append, List.mem_map]
      exact .inr ⟨comparison, by cases comparison <;> simp [comparisons], rfl⟩
  | like column pattern =>
    have read := text_quotedText pattern (ends.head?_ne (c := '\'') (by decide))
    rw [Term.render, List.append_assoc, List.append_assoc]
    refine term_of_test (by simp) ?_
    rw [test_append (map (.like column) text) (by simp [tests]), map, read]
    rfl
  | isIn column negated first others =>
    have read : list column negated (first.render ++ (Term.renderOthers others ++ ')' :: rest)) =
        some (.isIn column negated first others, rest) := list_render readable.1 readable.2
    have written : (Term.isIn column negated first others).render ++ rest =
        column.render ++ ((if negated then " NOT IN (" else " IN (").toList ++
          (first.render ++ (Term.renderOthers others ++ ')' :: rest))) := by
      simp [Term.render]
    rw [written]
    refine term_of_test (by cases negated <;> simp) ?_
    cases negated
    · rw [if_neg (by decide), test_append (list column false) (by simp [tests]), read]
    · rw [if_pos rfl, test_append (list column true) (by simp [tests]), read]
  | constant holds =>
    cases holds
    · rw [Term.render, if_neg (by decide), term, constantTerm,
        byLead_append (done (.constant false)) (by decide) (by simp)]
      rfl
    · rw [Term.render, if_pos rfl, term, constantTerm,
        byLead_append (done (.constant true)) (by decide) (by simp)]
      rfl

end Terms

section Statements

theorem renderOthers_terms_eq (connective : Connective) (terms : List Term) :
    Statement.renderOthers connective terms =
      terms.flatMap fun t => ' ' :: connective.keyword.toList ++ ' ' :: t.render := by
  induction terms with
  | nil => rfl
  | cons t terms ih => simp only [Statement.renderOthers, ih, List.flatMap_cons]

theorem ends_renderOthers_terms (connective : Connective) (terms : List Term) :
    Ends (Statement.renderOthers connective terms) := by
  cases terms with
  | nil => exact ends_nil
  | cons t terms => exact ends_blank _

theorem furtherTerm_render (connective : Connective) {t : Term} (readable : t.Readable)
    (ends : Ends rest) :
    furtherTerm (' ' :: connective.keyword.toList ++ ' ' :: t.render ++ rest) =
      some ((connective, t), rest) := by
  have written : ' ' :: connective.keyword.toList ++ ' ' :: t.render ++ rest =
      ' ' :: connective.keyword.toList ++ [' '] ++ (t.render ++ rest) := by simp
  have known : connective ∈ Connective.all := by cases connective <;> decide
  rw [written, furtherTerm, byLead_append (map (connective, ·) term) (by decide), map,
    term_render readable ends]
  · rfl
  · exact List.mem_map.mpr ⟨connective, known, rfl⟩

theorem many_renderOthers_terms (connective : Connective) {terms : List Term}
    (readable : ∀ t ∈ terms, t.Readable) :
    many furtherTerm (Statement.renderOthers connective terms) =
      (terms.map (connective, ·), []) := by
  have written : Statement.renderOthers connective terms =
      (terms.map (connective, ·)).flatMap
        (fun joint => ' ' :: joint.1.keyword.toList ++ ' ' :: joint.2.render) ++ [] := by
    rw [renderOthers_terms_eq, List.flatMap_map, List.append_nil]
  rw [written]
  refine many_flatMap Ends ?_ (fun _ _ _ => ends_blank _) (by simp) ends_nil rfl
  intro joint member rest ends
  obtain ⟨t, inside, rfl⟩ := List.mem_map.mp member
  exact furtherTerm_render connective (readable t inside) ends

/-- The conditions of a statement are read back to the end of its text. -/
theorem conditions_render {connective : Connective} {first : Term} {others : List Term}
    (firstReadable : first.Readable) (othersReadable : ∀ t ∈ others, t.Readable) :
    conditions (first.render ++ Statement.renderOthers connective others) =
      some (.terms first (others.map (connective, ·)), []) := by
  have heads : ∀ more, (first.render ++ more).head? = some '"' ∨
      (first.render ++ more).head? = some '1' := by
    intro more
    cases first with
    | constant holds => cases holds <;> exact .inr rfl
    | _ => exact .inl rfl
  have notConstant : ∀ more, constantConditions (first.render ++ more) = none := by
    intro more
    refine byLead_eq_none fun choice member => ?_
    simp only [List.mem_cons, List.not_mem_nil, or_false] at member
    rcases member with rfl | rfl <;> rcases heads more with h | h <;> rw [h] <;> decide
  rw [conditions, notConstant, terms, term_render firstReadable (ends_renderOthers_terms _ _)]
  simp only [Option.bind_eq_bind, Option.bind_some, many_renderOthers_terms _ othersReadable,
    Option.none_or]

theorem head?_join (rest : List Char) (j : Join) : (j.render ++ rest).head? = some ' ' := rfl

theorem join_render (j : Join) (alone : rest.head? ≠ some '"') :
    join (j.render ++ rest) = some (j, rest) := by
  have right := column_render j.equals rest alone
  have left := column_render j.column (" = ".toList ++ (j.equals.render ++ rest)) (by simp)
  have named := name_quotedName j.name
    (" ON ".toList ++ (j.column.render ++ (" = ".toList ++ (j.equals.render ++ rest))))
    (by simp)
  have table := name_quotedName j.table
    (" AS ".toList ++ (quotedName j.name ++ (" ON ".toList ++ (j.column.render ++
      (" = ".toList ++ (j.equals.render ++ rest)))))) (by simp)
  unfold Join.render join
  simp only [List.append_assoc, after_append, table, named, left, right, Option.bind_eq_bind,
    Option.bind_some]

theorem many_joins (joins : List Join) (rest : List Char) (alone : rest.head? ≠ some '"')
    (stops : join rest = none) :
    many join (joins.flatMap Join.render ++ rest) = (joins, rest) := by
  refine many_flatMap (fun rest => rest.head? ≠ some '"') ?_ ?_ ?_ alone stops
  · intro j _ rest alone
    exact join_render j alone
  · intro j _ rest
    rw [head?_join]
    decide
  · intro j _ empty
    have head := head?_join [] j
    rw [empty] at head
    cases head

/-- Behind the tables of a statement stand its conditions, if only the constant that no terms are. -/
theorem renderTerms_eq (connective : Connective) {terms : List Term}
    (readable : ∀ t ∈ terms, t.Readable) :
    ∃ inner, Statement.renderTerms connective terms = " WHERE ".toList ++ inner ∧
      conditions inner = some (.of connective terms, []) := by
  cases terms with
  | nil => cases connective <;> exact ⟨_, rfl, rfl⟩
  | cons first others =>
    refine ⟨first.render ++ Statement.renderOthers connective others, ?_, ?_⟩
    · unfold Statement.renderTerms
      exact List.append_assoc _ _ _
    · exact conditions_render (readable first List.mem_cons_self)
        fun t member => readable t (List.mem_cons_of_mem _ member)

/-- Without a name of its own in the text a table is followed by a join or the conditions. -/
theorem after_as_eq_none (joins : List Join) (inner : List Char) :
    after " AS ".toList name (joins.flatMap Join.render ++ (" WHERE ".toList ++ inner)) = none := by
  cases joins with
  | nil => exact after_append_eq_none name (by decide) inner
  | cons j joins =>
    rw [List.flatMap_cons]
    unfold Join.render
    simp only [List.append_assoc]
    exact after_append_eq_none name (by decide) _

theorem head?_joins (joins : List Join) (inner : List Char) :
    (joins.flatMap Join.render ++ (" WHERE ".toList ++ inner)).head? = some ' ' := by
  cases joins <;> rfl

theorem statement_renderChars {s : Statement} (readable : ∀ t ∈ s.terms, t.Readable) :
    statement s.renderChars = some (s.reading, []) := by
  obtain ⟨inner, written, read⟩ := renderTerms_eq s.connective readable
  have head := head?_joins s.joins inner
  have joins := many_joins s.joins (" WHERE ".toList ++ inner) (by simp) rfl
  unfold Statement.renderChars statement
  rw [written]
  simp only [List.append_assoc, after_append]
  by_cases same : s.name = s.table
  · have table := name_quotedName s.table
      (s.joins.flatMap Join.render ++ (" WHERE ".toList ++ inner)) (by rw [head]; decide)
    simp only [same, if_true, List.nil_append, table, after_as_eq_none, joins, after_append, read,
      Option.bind_eq_bind, Option.bind_some, Option.getD_none]
    rw [Statement.reading, same]
  · have named := name_quotedName s.name
      (s.joins.flatMap Join.render ++ (" WHERE ".toList ++ inner)) (by rw [head]; decide)
    have table := name_quotedName s.table (" AS ".toList ++ (quotedName s.name ++
      (s.joins.flatMap Join.render ++ (" WHERE ".toList ++ inner)))) (by simp)
    simp only [same, if_false, List.append_assoc, table, named, joins, after_append, read,
      Option.bind_eq_bind, Option.bind_some, Option.getD_some]
    rfl

end Statements

end Reader

/-- A statement is read back from its text if its numbers are readable. -/
theorem readStatement_render {s : Statement} (readable : ∀ t ∈ s.terms, t.Readable) :
    readStatement s.render = some s.reading := by
  rw [readStatement, Statement.render, String.toList_ofList, Reader.statement_renderChars readable]

end FilterQuery.Sql
