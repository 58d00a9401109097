import FilterQuery.Proofs.Expression.Separator

/-!
Expressions put together from others with a connective between them. They are split into just these
again (`split_intercalate`). Main statement: such an expression is read as the compound of what the
others are read as, or fails as the first of them that fails (`Filter.parse_intercalate`).
-/
namespace FilterQuery

open Text Expression

namespace Expression

variable {keyword op cs : List Char} {connective : Connective}

/-- The keyword of the connective is none of the words of the text. -/
def FreeOf (connective : Connective) (cs : List Char) : Prop :=
  ∀ word ∈ words cs, ¬sameText connective.keyword.toList word

instance (connective : Connective) (cs : List Char) : Decidable (FreeOf connective cs) :=
  inferInstanceAs (Decidable (∀ _ ∈ _, _))

/-- Texts that a connective can be put between: each has no blanks around it, and is not empty. -/
def Trimmed (es : List (List Char)) : Prop := ∀ e ∈ es, e ≠ [] ∧ trim e = e

section Words

theorem Between.exists_word (plain : keyword ≠ [] ∧ ∀ c ∈ keyword, isBlank c = false)
    (between : Between keyword cs) : ∃ word ∈ words cs, sameText keyword word := by
  obtain ⟨front, first, word, second, back, rfl, blank, blankBehind, same⟩ := between
  have nonempty : word ≠ [] := by
    rintro rfl
    exact plain.1 (List.length_eq_zero_iff.mp (length_eq_of_sameText same))
  have single := words_eq_singleton (isBlank_of_sameText same plain.2) nonempty
  rw [words_append_cons _ _ blank, words_append_cons _ _ blankBehind, single]
  exact ⟨word, by simp, same⟩

theorem FreeOf.not_between (free : FreeOf connective cs) : ¬Between connective.keyword.toList cs := by
  intro between
  obtain ⟨word, member, same⟩ := between.exists_word (keyword_plain connective)
  exact free word member same

theorem freeOf_append_blank {front back : List Char} :
    FreeOf connective (front ++ ' ' :: back) ↔ FreeOf connective front ∧ FreeOf connective back := by
  have blank : isBlank ' ' = true := by decide
  unfold FreeOf
  rw [words_append_cons front back blank]
  exact List.forall_mem_append

theorem freeOf_intercalate {es : List (List Char)} (freeOp : FreeOf connective op)
    (free : ∀ e ∈ es, FreeOf connective e) : FreeOf connective ((' ' :: op ++ [' ']).intercalate es) := by
  induction es with
  | nil =>
    intro word none
    cases none
  | cons e es ih =>
    have here := free e List.mem_cons_self
    have later := ih fun other member => free other (List.mem_cons_of_mem _ member)
    cases es with
    | nil => simpa using here
    | cons next es =>
      rw [List.intercalate_cons_cons, List.append_assoc, List.cons_append, List.cons_append,
        freeOf_append_blank, List.append_assoc, List.singleton_append, freeOf_append_blank]
      exact ⟨here, freeOp, later⟩

end Words

section Pieces

/-- Blanks in front of what ends in another character do not reach its end. -/
theorem exists_rest_of_blanks {front back before tail : List Char} (nonempty : front ≠ [])
    (stop : ∀ c ∈ front.getLast?, isBlank c = false) (blanks : ∀ b ∈ before, isBlank b = true)
    (shape : front ++ back = before ++ tail) : ∃ rest, front = before ++ rest := by
  rcases List.append_eq_append_iff.mp shape with ⟨more, rfl, _⟩ | ⟨rest, split, _⟩
  · have notBlank := stop _ (List.getLast?_eq_some_getLast nonempty)
    have blank := blanks _ (List.mem_append_left more (List.getLast_mem nonempty))
    rw [notBlank] at blank
    cases blank
  · exact ⟨rest, split⟩

/-- A word at the start of a text that goes on with a blank ends in front of that. -/
theorem exists_blank_behind {front back word more : List Char} {c : Char}
    (free : ∀ c ∈ word, isBlank c = false) (blank : isBlank c = true)
    (shape : front ++ ' ' :: back = word ++ c :: more) :
    ∃ second rest, front ++ [' '] = word ++ second :: rest ∧ isBlank second = true := by
  rcases List.append_eq_append_iff.mp shape with ⟨beyond, rfl, rest⟩ | ⟨rest, rfl, behind⟩
  · cases beyond with
    | nil => exact ⟨' ', [], by simp, by decide⟩
    | cons d beyond =>
      obtain ⟨rfl, _⟩ := List.cons_eq_cons.mp rest
      have notBlank := free ' ' (by simp)
      exact absurd notBlank (by decide)
  · cases rest with
    | nil => exact ⟨' ', [], by simp, by decide⟩
    | cons d rest =>
      obtain ⟨rfl, _⟩ := List.cons_eq_cons.mp behind
      exact ⟨c, rest ++ [' '], by simp, blank⟩

/-- A separator that starts in a text which ends in another character than a blank has its keyword in
it. -/
theorem between_of_separator_append (plain : keyword ≠ [] ∧ ∀ c ∈ keyword, isBlank c = false)
    {front back rest : List Char} (nonempty : front ≠ []) (stop : ∀ c ∈ front.getLast?, isBlank c = false)
    (found : afterSeparator? keyword (front ++ ' ' :: back) = some rest) :
    Between keyword (front ++ [' ']) := by
  obtain ⟨before, word, after, shape, someBefore, someAfter, blanks, same, _⟩ :=
    (afterSeparator?_eq_some_iff plain).mp found
  obtain ⟨second, after, rfl⟩ := List.exists_cons_of_ne_nil someAfter
  obtain ⟨inner, rfl⟩ := exists_rest_of_blanks nonempty stop
    (fun b member => blanks b (List.mem_append_left _ member)) shape
  rw [List.append_assoc] at shape
  have behind := List.append_cancel_left shape
  obtain ⟨other, tail, split, otherBlank⟩ :=
    exists_blank_behind (isBlank_of_sameText same plain.2) (blanks second (by simp)) behind
  rcases List.eq_nil_or_concat before with rfl | ⟨lead, first, rfl⟩
  · exact absurd rfl someBefore
  · exact ⟨lead, first, word, other, tail, by simp [split], blanks first (by simp), otherBlank, same⟩

theorem piecesBetween_of_nil (empty : cs = []) : piecesBetween keyword cs = [[]] := by
  fun_cases piecesBetween keyword cs with
  | case1 => rfl
  | case2 => cases empty
  | case3 => cases empty

theorem piecesBetween_of_some {rest : List Char} (found : afterSeparator? keyword cs = some rest) :
    piecesBetween keyword cs = [] :: piecesBetween keyword rest := by
  fun_cases piecesBetween keyword cs with
  | case1 => simp [afterSeparator?] at found
  | case2 c cs other same =>
    obtain rfl := Option.some.inj (found.symm.trans same)
    rfl
  | case3 c cs missed =>
    rw [found] at missed
    cases missed

theorem piecesBetween_of_none {c : Char} (missed : afterSeparator? keyword (c :: cs) = none) :
    piecesBetween keyword (c :: cs) = (piecesBetween keyword cs).modifyHead (c :: ·) := by
  generalize whole : c :: cs = text at missed ⊢
  fun_cases piecesBetween keyword text with
  | case1 => cases whole
  | case2 d ds rest found =>
    rw [missed] at found
    cases found
  | case3 d ds =>
    cases whole
    rfl

theorem piecesBetween_eq_singleton (plain : keyword ≠ [] ∧ ∀ c ∈ keyword, isBlank c = false)
    (free : ¬Between keyword cs) : piecesBetween keyword cs = [cs] := by
  fun_induction piecesBetween keyword cs with
  | case1 => rfl
  | case2 c cs rest found => exact absurd (.of_separator plain found) free
  | case3 c cs missed ih => rw [ih fun between => free between.cons, List.modifyHead_cons]

/-- The first piece is the text in front of a separator, if it has no keyword itself. -/
theorem piecesBetween_append (plain : keyword ≠ [] ∧ ∀ c ∈ keyword, isBlank c = false)
    (same : sameText keyword op) {front back : List Char} (free : ¬Between keyword (front ++ [' ']))
    (stop : ∀ c ∈ front.getLast?, isBlank c = false) (start : ∀ c ∈ back.head?, isBlank c = false) :
    piecesBetween keyword (front ++ ' ' :: (op ++ ' ' :: back)) = front :: piecesBetween keyword back := by
  induction front with
  | nil =>
    have blank : isBlank ' ' = true := by decide
    have found : afterSeparator? keyword ([' '] ++ (op ++ ([' '] ++ back))) = some back :=
      afterSeparator?_append plain (by simp) (by simp) (by simp [blank]) same start
    exact piecesBetween_of_some found
  | cons c front ih =>
    have missed : afterSeparator? keyword (c :: front ++ ' ' :: (op ++ ' ' :: back)) = none := by
      cases found : afterSeparator? keyword (c :: front ++ ' ' :: (op ++ ' ' :: back)) with
      | none => rfl
      | some rest =>
        exact absurd (between_of_separator_append plain (List.cons_ne_nil _ _) stop found) free
    have stopLater : ∀ d ∈ front.getLast?, isBlank d = false := by
      intro d atEnd
      apply stop d
      rw [List.getLast?_cons, atEnd]
      rfl
    have later := ih (fun between => free between.cons) stopLater
    rw [List.cons_append] at missed ⊢
    rw [piecesBetween_of_none missed, later, List.modifyHead_cons]

end Pieces

section Intercalate

variable {es : List (List Char)}

theorem Trimmed.of_cons {e : List Char} (trimmed : Trimmed (e :: es)) : Trimmed es :=
  fun other member => trimmed other (List.mem_cons_of_mem _ member)

/-- Trimmed texts with a connective between them are a trimmed text. -/
theorem Trimmed.intercalate (trimmed : Trimmed es) (nonempty : es ≠ []) (op : List Char) :
    (' ' :: op ++ [' ']).intercalate es ≠ [] ∧
      trim ((' ' :: op ++ [' ']).intercalate es) = (' ' :: op ++ [' ']).intercalate es := by
  induction es with
  | nil => exact absurd rfl nonempty
  | cons e es ih =>
    obtain ⟨someHere, trimmedHere⟩ := trimmed e List.mem_cons_self
    cases es with
    | nil => simpa using ⟨someHere, trimmedHere⟩
    | cons next es =>
      obtain ⟨someLater, trimmedLater⟩ := ih trimmed.of_cons (List.cons_ne_nil _ _)
      have last := List.getLast?_eq_some_getLast someLater
      have stop := getLast?_trim ((' ' :: op ++ [' ']).intercalate (next :: es))
      rw [trimmedLater] at stop
      have notBlank := stop _ last
      rw [List.intercalate_cons_cons, List.append_assoc]
      refine ⟨by simp [someHere], trim_append_self trimmedHere someHere ⟨_, ?_, notBlank⟩⟩
      rw [List.getLast?_append, last, Option.some_or]
      rfl

theorem piecesBetween_intercalate (same : sameText connective.keyword.toList op) (trimmed : Trimmed es)
    (free : ∀ e ∈ es, FreeOf connective e) (nonempty : es ≠ []) :
    piecesBetween connective.keyword.toList ((' ' :: op ++ [' ']).intercalate es) = es := by
  have plain := keyword_plain connective
  induction es with
  | nil => exact absurd rfl nonempty
  | cons e es ih =>
    have freeHere := free e List.mem_cons_self
    have freeLater := fun other member => free other (List.mem_cons_of_mem e member)
    cases es with
    | nil =>
      rw [List.intercalate_singleton]
      exact piecesBetween_eq_singleton plain freeHere.not_between
    | cons next es =>
      have later := ih trimmed.of_cons freeLater (List.cons_ne_nil _ _)
      obtain ⟨_, trimmedLater⟩ := trimmed.of_cons.intercalate (List.cons_ne_nil _ _) op
      have start := head?_trim ((' ' :: op ++ [' ']).intercalate (next :: es))
      have stop := getLast?_trim e
      rw [trimmedLater] at start
      rw [(trimmed e List.mem_cons_self).2] at stop
      have apart : FreeOf connective (e ++ ' ' :: []) :=
        freeOf_append_blank.mpr ⟨freeHere, fun word none => absurd none (by simp [words])⟩
      have first := piecesBetween_append plain same apart.not_between stop start
      rw [later] at first
      rw [List.intercalate_cons_cons]
      simpa using first

/-- Trimmed texts none of which has the connective among its words are the pieces that they are split
into again when they are put together with the connective between them. -/
theorem split_intercalate (same : sameText connective.keyword.toList op) (trimmed : Trimmed es)
    (free : ∀ e ∈ es, FreeOf connective e) (nonempty : es ≠ []) :
    split connective ((' ' :: op ++ [' ']).intercalate es) = es := by
  rw [split, piecesBetween_intercalate same trimmed free nonempty, List.map_congr_left (g := id), List.map_id]
  intro e member
  exact (trimmed e member).2

theorem spaced_intercalate (same : sameText connective.keyword.toList op) (two : 2 ≤ es.length) :
    Spaced connective ((' ' :: op ++ [' ']).intercalate es) := by
  obtain ⟨first, second, others, rfl⟩ : ∃ first second others, es = first :: second :: others := by
    match es, two with
    | first :: second :: others, _ => exact ⟨first, second, others, rfl⟩
  rw [List.intercalate_cons_cons]
  have here : Occurs (separator connective) (' ' :: op ++ [' ']) :=
    ⟨[], _, rfl, ' ' :: op ++ [' '], [], by simp, by
      rw [separator, List.cons_append, List.cons_append, sameText_cons,
        sameText_append (length_eq_of_sameText same)]
      exact ⟨rfl, same, rfl⟩⟩
  exact (here.prepend first).append _

/-- The connective that texts are put together with is seen if no other is looked for before it and
stands among their words. -/
theorem connective?_intercalate (same : sameText connective.keyword.toList op) (two : 2 ≤ es.length)
    (free : ∀ e ∈ es, FreeOf .and e) :
    connective? ((' ' :: op ++ [' ']).intercalate es) = some connective := by
  have spaced := spaced_intercalate same two
  rw [connective?_eq]
  cases connective with
  | and => rw [if_pos spaced]
  | or =>
    have single : words op = [op] := by
      refine words_eq_singleton (isBlank_of_sameText same (keyword_plain .or).2) ?_
      rintro rfl
      cases length_eq_of_sameText same
    have freeOp : FreeOf .and op := by
      intro word member sameAnd
      rw [single, List.mem_singleton] at member
      subst member
      cases (length_eq_of_sameText sameAnd).trans (length_eq_of_sameText same).symm
    have notSpaced : ¬Spaced .and ((' ' :: op ++ [' ']).intercalate es) := fun between =>
      (freeOf_intercalate freeOp free).not_between between.delimited
    rw [if_neg notSpaced, if_pos spaced]

end Intercalate

end Expression

section Parse

variable {connective : Connective} {op : String} {es : List String}

theorem Condition.noOperator_of_error {e : String} {fault : Fault} (trimmed : trim e.toList = e.toList)
    (failed : Condition.parse e = .error fault) : fault = .noOperator e := by
  unfold Condition.parse Condition.ofChars at failed
  simp only [trimmed] at failed
  split at failed
  · cases failed
    rw [String.ofList_toList]
  · cases failed

/-- Expressions put together with a connective are read one by one. The connective is written in any
case. -/
theorem Filter.parse_intercalate_eq (same : sameText connective.keyword.toList op.toList)
    (two : 2 ≤ es.length) (trimmed : ∀ e ∈ es, e ≠ "" ∧ trim e.toList = e.toList)
    (free : ∀ e ∈ es, FreeOf .and e.toList ∧ FreeOf connective e.toList) :
    Filter.parse ((" " ++ op ++ " ").intercalate es) =
      (es.mapM Condition.parse).map (Filter.compound connective) := by
  have text : ((" " ++ op ++ " ").intercalate es).toList =
      (' ' :: op.toList ++ [' ']).intercalate (es.map String.toList) := by
    rw [String.toList_intercalate]
    simp
  have someText : es.map String.toList ≠ [] := by
    intro empty
    rw [List.map_eq_nil_iff.mp empty] at two
    cases two
  have parts : Trimmed (es.map String.toList) := by
    intro part member
    obtain ⟨e, inside, rfl⟩ := List.mem_map.mp member
    obtain ⟨nonempty, kept⟩ := trimmed e inside
    exact ⟨by simpa using nonempty, kept⟩
  have freeParts : ∀ part ∈ es.map String.toList, FreeOf .and part ∧ FreeOf connective part := by
    intro part member
    obtain ⟨e, inside, rfl⟩ := List.mem_map.mp member
    exact free e inside
  have kept := (parts.intercalate someText op.toList).2
  have several : 2 ≤ (es.map String.toList).length := by simpa using two
  have seen := connective?_intercalate same several fun part member => (freeParts part member).1
  have pieces := split_intercalate same parts (fun part member => (freeParts part member).2) someText
  unfold Filter.parse Filter.ofChars
  simp only [text, kept, seen, pieces]
  rw [List.mapM_map]
  rfl

/-- Of expressions with a connective between them, which stands among the words of none of them, the
compound of what they are read as is read; or the first of them that is no condition is told to be
none. -/
theorem Filter.parse_intercalate (same : sameText connective.keyword.toList op.toList)
    (two : 2 ≤ es.length) (trimmed : ∀ e ∈ es, e ≠ "" ∧ trim e.toList = e.toList)
    (free : ∀ e ∈ es, FreeOf .and e.toList ∧ FreeOf connective e.toList) :
    (∀ conditions, es.map Condition.parse = conditions.map .ok →
      Filter.parse ((" " ++ op ++ " ").intercalate es) = .ok (.compound connective conditions)) ∧
    ∀ before e after fault, es = before ++ e :: after →
      (∀ other ∈ before, (Condition.parse other).isOk) → Condition.parse e = .error fault →
      fault = .noOperator e ∧ Filter.parse ((" " ++ op ++ " ").intercalate es) = .error fault := by
  rw [parse_intercalate_eq same two trimmed free]
  constructor
  · intro conditions read
    rw [mapM_eq_ok_iff.mpr read]
    rfl
  · rintro before e after fault rfl others failed
    have told := Condition.noOperator_of_error (trimmed e (by simp)).2 failed
    rw [mapM_eq_error others failed]
    exact ⟨told, rfl⟩

/-- Two conditions, and two of which the second is none. The first has the other connective between its
words. -/
theorem Filter.parse_intercalate_mixed :
    Filter.parse ((" " ++ "aNd" ++ " ").intercalate ["a LIKE 'x or y'", "b = 2"]) =
        .ok (.compound .and [⟨"a", .like, .text "x or y", "a LIKE 'x or y'"⟩, ⟨"b", .eq, .int 2, "b = 2"⟩]) ∧
      Filter.parse ((" " ++ "aNd" ++ " ").intercalate ["a LIKE 'x or y'", "b : 2", "c"]) =
        .error (.noOperator "b : 2") := by
  have read := (@Filter.parse_intercalate .and "aNd" ["a LIKE 'x or y'", "b = 2"]
    (by decide) (by decide) (by decide) (by decide)).1
  have failed := (@Filter.parse_intercalate .and "aNd" ["a LIKE 'x or y'", "b : 2", "c"]
    (by decide) (by decide) (by decide) (by decide)).2
  exact ⟨read _ (by decide +kernel),
    (failed ["a LIKE 'x or y'"] "b : 2" ["c"] _ rfl (by decide +kernel) rfl).2⟩

end Parse

end FilterQuery
