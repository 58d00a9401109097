import FilterQuery.Proofs.Expression.Compound

/-!
The pieces that a text is split into. Every text is made of pieces with separators between them, each of which
is the leftmost one behind the last with all blanks around it (`exists_partition`). Main statement: there is
one such way to part a text, and the text is split into its pieces (`split_partition`).
-/
namespace FilterQuery

open Text

namespace Expression

variable {keyword w piece rest cs : List Char} {parts : List (List Char × List Char)}

/-- The text is a separator: blanks, the keyword in any case, and blanks, at least one on either side. -/
def IsSeparator (keyword w : List Char) : Prop :=
  ∃ before word after, w = before ++ (word ++ after) ∧ before ≠ [] ∧ after ≠ [] ∧
    (∀ b ∈ before ++ after, isBlank b = true) ∧ sameText keyword word

/-- A piece and, one after another, separators with the pieces behind them are put together to a text. -/
def joined (first : List Char) : List (List Char × List Char) → List Char
  | [] => first
  | (w, piece) :: later => first ++ (w ++ joined piece later)

/-- Of the text behind the last separator, this is the leftmost separator, with all blanks around it. -/
structure LeftmostSeparator (keyword piece w rest : List Char) : Prop where
  isSeparator : IsSeparator keyword w
  leftmost : ∀ front other back, piece ++ (w ++ rest) = front ++ (other ++ back) →
    IsSeparator keyword other → piece.length ≤ front.length
  blanksBefore : ∀ c ∈ piece.getLast?, isBlank c = false
  blanksAfter : ∀ c ∈ rest.head?, isBlank c = false

/-- Behind each piece but the last stands the leftmost separator of what is left of the text. -/
def Parted (keyword first : List Char) : List (List Char × List Char) → Prop
  | [] => True
  | (w, piece) :: later => LeftmostSeparator keyword first w (joined piece later) ∧ Parted keyword piece later

/-- There is no separator in the text. -/
def Unparted (keyword cs : List Char) : Prop :=
  ∀ front w back, cs = front ++ (w ++ back) → ¬IsSeparator keyword w

/-- A way to part a text: it is made of pieces and separators, of which each is the leftmost one behind the
last, and the pieces have no separators in them. -/
structure Partition (keyword cs first : List Char) (parts : List (List Char × List Char)) : Prop where
  text : cs = joined first parts
  parted : Parted keyword first parts
  free : ∀ piece ∈ first :: parts.map (·.2), Unparted keyword piece

theorem IsSeparator.cons {b : Char} (blank : isBlank b = true) (separator : IsSeparator keyword w) :
    IsSeparator keyword (b :: w) := by
  obtain ⟨before, word, after, rfl, someBefore, someAfter, blanks, same⟩ := separator
  exact ⟨b :: before, word, after, rfl, List.cons_ne_nil _ _, someAfter,
    List.forall_mem_cons.mpr ⟨blank, blanks⟩, same⟩

theorem IsSeparator.ne_nil (separator : IsSeparator keyword w) : w ≠ [] := by
  obtain ⟨before, word, after, rfl, someBefore, _⟩ := separator
  simp [someBefore]

/-- A text that starts with a separator starts with one that takes in all blanks behind it. -/
theorem exists_afterSeparator? (plain : keyword ≠ [] ∧ ∀ c ∈ keyword, isBlank c = false)
    (separator : IsSeparator keyword w) (back : List Char) :
    ∃ rest, afterSeparator? keyword (w ++ back) = some rest := by
  obtain ⟨before, word, after, rfl, someBefore, someAfter, blanks, same⟩ := separator
  have more : ∀ b ∈ before ++ (after ++ back.takeWhile isBlank), isBlank b = true := by
    intro b member
    rw [← List.append_assoc, List.mem_append] at member
    rcases member with inside | behind
    · exact blanks b inside
    · exact List.mem_takeWhile_imp behind
  have here := afterSeparator?_append plain someBefore (by simp [someAfter]) more same
    (head?_dropWhile_isBlank back)
  rw [List.append_assoc, List.takeWhile_append_dropWhile] at here
  exact ⟨_, by simpa using here⟩

theorem separator_of_afterSeparator? (plain : keyword ≠ [] ∧ ∀ c ∈ keyword, isBlank c = false)
    (found : afterSeparator? keyword cs = some rest) :
    ∃ w, cs = w ++ rest ∧ IsSeparator keyword w ∧ ∀ c ∈ rest.head?, isBlank c = false := by
  obtain ⟨before, word, after, rfl, someBefore, someAfter, blanks, same, stop⟩ :=
    (afterSeparator?_eq_some_iff plain).mp found
  exact ⟨before ++ (word ++ after), by simp, ⟨before, word, after, rfl, someBefore, someAfter, blanks, same⟩,
    stop⟩

/-- A text that does not start with a separator has its separators behind its first character. -/
theorem exists_front_of_missed (plain : keyword ≠ [] ∧ ∀ c ∈ keyword, isBlank c = false) {c : Char}
    (missed : afterSeparator? keyword (c :: cs) = none) {front back : List Char}
    (shape : c :: cs = front ++ (w ++ back)) (separator : IsSeparator keyword w) :
    ∃ later, front = c :: later ∧ cs = later ++ (w ++ back) := by
  cases front with
  | nil =>
    obtain ⟨rest, found⟩ := exists_afterSeparator? plain separator back
    rw [List.nil_append] at shape
    rw [shape, found] at missed
    cases missed
  | cons d later =>
    cases shape
    exact ⟨later, rfl, rfl⟩

theorem exists_joined (first : List Char) (parts : List (List Char × List Char)) :
    ∃ rest, joined first parts = first ++ rest := by
  cases parts with
  | nil => exact ⟨[], (List.append_nil _).symm⟩
  | cons part later => exact ⟨_, rfl⟩

theorem joined_cons (c : Char) (first : List Char) (parts : List (List Char × List Char)) :
    joined (c :: first) parts = c :: joined first parts := by
  cases parts <;> rfl

theorem Unparted.cons (plain : keyword ≠ [] ∧ ∀ c ∈ keyword, isBlank c = false) {c : Char}
    (free : Unparted keyword piece) (missed : afterSeparator? keyword (c :: (piece ++ rest)) = none) :
    Unparted keyword (c :: piece) := by
  intro front w back shape separator
  have longer : c :: (piece ++ rest) = front ++ (w ++ (back ++ rest)) := by
    rw [← List.cons_append, shape]
    simp
  obtain ⟨later, rfl, _⟩ := exists_front_of_missed plain missed longer separator
  exact free later w back (List.cons.inj shape).2 separator

/-- A character that no separator starts with may stand in front. -/
theorem LeftmostSeparator.cons (plain : keyword ≠ [] ∧ ∀ c ∈ keyword, isBlank c = false) {c : Char}
    (next : LeftmostSeparator keyword piece w rest)
    (missed : afterSeparator? keyword (c :: (piece ++ (w ++ rest))) = none) :
    LeftmostSeparator keyword (c :: piece) w rest where
  isSeparator := next.isSeparator
  leftmost := by
    intro front other back shape separator
    obtain ⟨later, rfl, inside⟩ := exists_front_of_missed plain missed shape separator
    exact Nat.succ_le_succ (next.leftmost later other back inside separator)
  blanksBefore := by
    intro d atEnd
    cases piece with
    | nil =>
      -- A blank would belong to the separator behind it, which would then start here.
      obtain rfl : c = d := by simpa using atEnd
      by_contra blank
      rw [Bool.not_eq_false] at blank
      obtain ⟨after, found⟩ := exists_afterSeparator? plain (next.isSeparator.cons blank) rest
      rw [List.nil_append, ← List.cons_append, found] at missed
      cases missed
    | cons e piece =>
      rw [List.getLast?_cons_cons] at atEnd
      exact next.blanksBefore d atEnd
  blanksAfter := next.blanksAfter

/-- Every text is made of pieces with separators between them. -/
theorem exists_partition (plain : keyword ≠ [] ∧ ∀ c ∈ keyword, isBlank c = false) (cs : List Char) :
    ∃ first parts, Partition keyword cs first parts := by
  have empty : Unparted keyword [] := by
    intro front w back shape separator
    simp [separator.ne_nil] at shape
  -- A separator ends an empty piece here, and every other character goes to the piece behind it.
  fun_induction piecesBetween keyword cs with
  | case1 => exact ⟨[], [], rfl, trivial, by simpa using empty⟩
  | case2 c cs rest found shorter ih =>
    obtain ⟨first, parts, rfl, parted, free⟩ := ih
    obtain ⟨w, shape, separator, stop⟩ := separator_of_afterSeparator? plain found
    refine ⟨[], (w, first) :: parts, shape, ⟨⟨separator, ?_, by simp, stop⟩, parted⟩, ?_⟩
    · intros
      exact Nat.zero_le _
    · exact List.forall_mem_cons.mpr ⟨empty, free⟩
  | case3 c cs missed ih =>
    obtain ⟨first, parts, rfl, parted, free⟩ := ih
    refine ⟨c :: first, parts, (joined_cons c first parts).symm, ?_, ?_⟩
    · cases parts with
      | nil => trivial
      | cons part later => exact ⟨parted.1.cons plain missed, parted.2⟩
    · obtain ⟨rest, shape⟩ := exists_joined first parts
      rw [shape] at missed
      obtain ⟨here, others⟩ := List.forall_mem_cons.mp free
      exact List.forall_mem_cons.mpr ⟨here.cons plain missed, others⟩

/-- The text in front of the leftmost separator is the first piece. -/
theorem LeftmostSeparator.piecesBetween_eq (plain : keyword ≠ [] ∧ ∀ c ∈ keyword, isBlank c = false)
    (next : LeftmostSeparator keyword piece w rest) :
    piecesBetween keyword (piece ++ (w ++ rest)) = piece :: piecesBetween keyword rest := by
  induction piece with
  | nil =>
    obtain ⟨before, word, after, rfl, someBefore, someAfter, blanks, same⟩ := next.isSeparator
    have found := afterSeparator?_append plain someBefore someAfter blanks same next.blanksAfter
    rw [List.nil_append, List.append_assoc, List.append_assoc]
    exact piecesBetween_of_some found
  | cons c piece ih =>
    have missed : afterSeparator? keyword (c :: (piece ++ (w ++ rest))) = none := by
      cases found : afterSeparator? keyword (c :: (piece ++ (w ++ rest))) with
      | none => rfl
      | some after =>
        obtain ⟨other, shape, separator, _⟩ := separator_of_afterSeparator? plain found
        exact absurd (next.leftmost [] other after shape separator) (by simp)
    have later : LeftmostSeparator keyword piece w rest := by
      refine ⟨next.isSeparator, fun front other back shape separator => ?_, fun d atEnd => ?_, next.blanksAfter⟩
      · have longer : c :: (piece ++ (w ++ rest)) = c :: front ++ (other ++ back) := by rw [shape]; rfl
        exact Nat.le_of_succ_le_succ (next.leftmost (c :: front) other back longer separator)
      · apply next.blanksBefore d
        rw [List.getLast?_cons, atEnd]
        rfl
    rw [List.cons_append, piecesBetween_of_none missed, ih later]
    rfl

theorem Unparted.not_between (free : Unparted keyword cs) : ¬Between keyword cs := by
  rintro ⟨front, first, word, second, back, rfl, blank, blankBehind, same⟩
  exact free front ([first] ++ (word ++ [second])) back (by simp)
    ⟨[first], word, [second], rfl, by simp, by simp, by simp [blank, blankBehind], same⟩

theorem piecesBetween_joined (plain : keyword ≠ [] ∧ ∀ c ∈ keyword, isBlank c = false) {first : List Char}
    (parted : Parted keyword first parts) (free : ∀ piece ∈ first :: parts.map (·.2), Unparted keyword piece) :
    piecesBetween keyword (joined first parts) = first :: parts.map (·.2) := by
  induction parts generalizing first with
  | nil => exact piecesBetween_eq_singleton plain (free first List.mem_cons_self).not_between
  | cons part later ih =>
    rw [joined, parted.1.piecesBetween_eq plain,
      ih parted.2 fun piece member => free piece (List.mem_cons_of_mem _ member)]
    rfl

/-- A text is made of pieces with separators between them. Behind each piece stands the leftmost separator of
what is left of the text, with all blanks around it, and no piece has a separator in it. The text is split
into just these pieces, without the blanks at their ends. -/
theorem split_partition (connective : Connective) (cs : List Char) :
    (∃ first parts, Partition connective.keyword.toList cs first parts) ∧
    ∀ first parts, Partition connective.keyword.toList cs first parts →
      split connective cs = (first :: parts.map (·.2)).map trim := by
  have plain := keyword_plain connective
  refine ⟨exists_partition plain cs, ?_⟩
  rintro first parts ⟨rfl, parted, free⟩
  rw [split, piecesBetween_joined plain parted free]

end Expression

end FilterQuery
