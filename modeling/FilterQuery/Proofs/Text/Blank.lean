import FilterQuery.Text.Blank
import Mathlib.Data.List.DropRight

/-!
Texts without the blanks at their ends, and the words between blanks. Main statements: what starts and
ends with other characters is not changed when the blanks around it are taken away
(`trim_append`), and what stands between two blanks is a word (`mem_words_of_between`).
-/
namespace FilterQuery.Text

section Pieces

variable {separates : Char → Bool}

theorem pieces_append_cons (before after : List Char) {c : Char} (separator : separates c = true) :
    pieces separates (before ++ c :: after) = pieces separates before ++ pieces separates after := by
  induction before with
  | nil => simp [pieces, separator]
  | cons b before ih =>
    simp only [List.cons_append, pieces, ih]
    split
    · rfl
    · obtain ⟨first, others, shape⟩ := List.exists_cons_of_ne_nil (pieces_ne_nil separates before)
      simp [shape]

theorem pieces_eq_singleton {cs : List Char} (free : ∀ c ∈ cs, separates c = false) :
    pieces separates cs = [cs] := by
  induction cs with
  | nil => rfl
  | cons c cs ih =>
    have rest := ih fun d member => free d (List.mem_cons_of_mem _ member)
    have head := free c List.mem_cons_self
    simp [pieces, head, rest]

theorem separates_eq_false_of_mem_pieces {cs piece : List Char} (member : piece ∈ pieces separates cs)
    {c : Char} (inside : c ∈ piece) : separates c = false := by
  induction cs generalizing piece with
  | nil =>
    simp only [pieces_nil, List.mem_singleton] at member
    simp [member] at inside
  | cons d cs ih =>
    obtain ⟨first, others, shape⟩ := List.exists_cons_of_ne_nil (pieces_ne_nil separates cs)
    have firstMember : first ∈ pieces separates cs := by simp [shape]
    unfold pieces at member
    split at member
    · rcases List.mem_cons.mp member with here | later
      · simp [here] at inside
      · exact ih later inside
    · next notSeparator =>
      rw [shape, List.modifyHead_cons] at member
      rcases List.mem_cons.mp member with here | later
      · rw [here] at inside
        rcases List.mem_cons.mp inside with same | old
        · simpa [same] using notSeparator
        · exact ih firstMember old
      · exact ih (by simp [shape, later]) inside

/-- The first piece stands at the start of the text, and all of them stand in it. -/
theorem pieces_isInfix {cs first : List Char} {others : List (List Char)}
    (shape : pieces separates cs = first :: others) :
    first <+: cs ∧ ∀ piece ∈ first :: others, piece <:+: cs := by
  induction cs generalizing first others with
  | nil =>
    cases shape
    simp
  | cons c cs ih =>
    obtain ⟨front, back, rest⟩ := List.exists_cons_of_ne_nil (pieces_ne_nil separates cs)
    obtain ⟨atStart, inside⟩ := ih rest
    have later : ∀ piece ∈ front :: back, piece <:+: c :: cs :=
      fun piece member => (inside piece member).trans (List.suffix_cons c cs).isInfix
    rw [pieces, rest] at shape
    split at shape
    · cases shape
      exact ⟨List.nil_prefix, List.forall_mem_cons.mpr ⟨List.nil_infix, later⟩⟩
    · cases shape
      have extended : c :: front <+: c :: cs := List.cons_prefix_cons.mpr ⟨rfl, atStart⟩
      exact ⟨extended, List.forall_mem_cons.mpr ⟨extended.isInfix, (List.forall_mem_cons.mp later).2⟩⟩

theorem infix_of_mem_pieces {cs piece : List Char} (member : piece ∈ pieces separates cs) :
    piece <:+: cs := by
  obtain ⟨first, others, shape⟩ := List.exists_cons_of_ne_nil (pieces_ne_nil separates cs)
  exact (pieces_isInfix shape).2 piece (shape ▸ member)

end Pieces

section Trim

theorem trimEnd_prefix (cs : List Char) : trimEnd cs <+: cs := List.rdropWhile_prefix isBlank cs

theorem trimEnd_append_of_blank {cs blanks : List Char} (blank : ∀ c ∈ blanks, isBlank c = true) :
    trimEnd (cs ++ blanks) = trimEnd cs := by
  have front : ∀ c ∈ blanks.reverse, isBlank c = true := fun c member => blank c (by simpa using member)
  rw [trimEnd, List.reverse_append, List.dropWhile_append_of_pos front]
  rfl

theorem trimEnd_append {cs : List Char} (stop : ∃ c ∈ cs.getLast?, isBlank c = false)
    (rest : List Char) : trimEnd (cs ++ rest) = cs ++ trimEnd rest := by
  obtain ⟨last, atEnd, notBlank⟩ := stop
  obtain ⟨init, rfl⟩ := List.getLast?_eq_some_iff.mp atEnd
  have shape := List.takeWhile_append_dropWhile (p := isBlank) (l := rest.reverse)
  cases inner : rest.reverse.dropWhile isBlank with
  | nil =>
    have all : ∀ c ∈ rest, isBlank c = true := by
      intro c member
      rw [List.dropWhile_eq_nil_iff] at inner
      exact inner c (by simpa using member)
    have none : trimEnd rest = [] := by rw [trimEnd, inner, List.reverse_nil]
    rw [trimEnd_append_of_blank all, none, trimEnd]
    simp [notBlank]
  | cons c cs =>
    simp [trimEnd, List.dropWhile_append, inner]

theorem trim_isInfix (cs : List Char) : trim cs <:+: cs :=
  have front := trimEnd_prefix (cs.dropWhile isBlank)
  front.isInfix.trans (List.dropWhile_suffix isBlank).isInfix

theorem trim_cons {c : Char} (notBlank : isBlank c = false) (cs : List Char) :
    trim (c :: cs) = c :: trimEnd cs := by
  have kept : (c :: cs).dropWhile isBlank = [c] ++ cs := by simp [notBlank]
  rw [trim, kept, trimEnd_append ⟨c, rfl, notBlank⟩]
  rfl

theorem trimEnd_trimEnd (cs : List Char) : trimEnd (trimEnd cs) = trimEnd cs := by
  rw [trimEnd, trimEnd, List.reverse_reverse, List.dropWhile_idempotent]

theorem trim_blank_cons {b : Char} (blank : isBlank b = true) (cs : List Char) :
    trim (b :: cs) = trim cs := by
  simp [trim, blank]

/-- What neither starts nor ends with a blank stays as it is, and so does all in front of it. -/
theorem trim_append {cs : List Char} (start : ∃ c ∈ cs.head?, isBlank c = false)
    (stop : ∃ c ∈ cs.getLast?, isBlank c = false) (rest : List Char) :
    trim (cs ++ rest) = cs ++ trimEnd rest := by
  obtain ⟨first, atHead, notBlank⟩ := start
  obtain ⟨later, rfl⟩ : ∃ later, cs = first :: later := by
    cases cs with
    | nil => cases atHead
    | cons c later =>
      cases atHead
      exact ⟨later, rfl⟩
  have kept : (first :: later ++ rest).dropWhile isBlank = first :: later ++ rest := by simp [notBlank]
  rw [trim, kept, trimEnd_append stop]

theorem head?_trim (cs : List Char) : ∀ c ∈ (trim cs).head?, isBlank c = false := by
  intro c atHead
  obtain ⟨later, shape⟩ := List.head?_eq_some_iff.mp atHead
  obtain ⟨blanks, whole⟩ := trimEnd_prefix (cs.dropWhile isBlank)
  rw [trim] at shape
  rw [shape] at whole
  have first := List.head?_dropWhile_not isBlank cs
  rw [← whole] at first
  exact first

theorem getLast?_trim (cs : List Char) : ∀ c ∈ (trim cs).getLast?, isBlank c = false := by
  intro c atEnd
  rw [trim, trimEnd, List.getLast?_reverse] at atEnd
  have first := List.head?_dropWhile_not isBlank (cs.dropWhile isBlank).reverse
  rw [atEnd] at first
  exact first

/-- A text that neither starts nor ends with a blank stays as it is. -/
theorem trim_eq_self {cs : List Char} (start : ∀ c ∈ cs.head?, isBlank c = false)
    (stop : ∀ c ∈ cs.getLast?, isBlank c = false) : trim cs = cs := by
  by_cases empty : cs = []
  · rw [empty]
    rfl
  · have first := List.head?_eq_some_head empty
    have last := List.getLast?_eq_some_getLast empty
    have kept := trim_append ⟨_, first, start _ first⟩ ⟨_, last, stop _ last⟩ []
    simpa [trimEnd] using kept

/-- A text without blanks around it can be continued up to a character that is not blank. -/
theorem trim_append_self {front back : List Char} (trimmed : trim front = front) (nonempty : front ≠ [])
    (stop : ∃ c ∈ back.getLast?, isBlank c = false) : trim (front ++ back) = front ++ back := by
  obtain ⟨last, atEnd, notBlank⟩ := stop
  have start := head?_trim front
  rw [trimmed] at start
  apply trim_eq_self
  · rw [List.head?_append_of_ne_nil _ nonempty]
    exact start
  · intro c member
    rw [List.getLast?_append, atEnd, Option.some_or] at member
    cases member
    exact notBlank

theorem trim_trim (cs : List Char) : trim (trim cs) = trim cs := trim_eq_self (head?_trim cs) (getLast?_trim cs)

/-- A text around which there are no blanks is kept behind another blank. -/
theorem trimEnd_cons {cs : List Char} (trimmed : trim cs = cs) (nonempty : cs ≠ []) (b : Char) :
    trimEnd (b :: cs) = b :: cs := by
  have last := List.getLast?_eq_some_getLast nonempty
  have atEnd : (b :: cs).getLast? = some (cs.getLast nonempty) := by
    rw [← List.singleton_append, List.getLast?_append, last]
    rfl
  have kept := trimEnd_append ⟨_, atEnd, getLast?_trim cs _ (trimmed.symm ▸ last)⟩ []
  simpa [trimEnd] using kept

end Trim

section Words

/-- The words on the two sides of a blank are the words of the text. -/
theorem words_append_cons (before after : List Char) {b : Char} (blank : isBlank b = true) :
    words (before ++ b :: after) = words before ++ words after := by
  rw [words, pieces_append_cons _ _ blank, List.filter_append]
  rfl

theorem words_eq_singleton {word : List Char} (free : ∀ c ∈ word, isBlank c = false)
    (nonempty : word ≠ []) : words word = [word] := by
  simp [words, pieces_eq_singleton free, nonempty]

/-- What stands between two blanks, of which the first may be one in front of the text, is a word. -/
theorem mem_words_of_between {cs front word back : List Char} {b first second : Char}
    (blank : isBlank b = true ∧ isBlank first = true ∧ isBlank second = true)
    (shape : b :: cs = front ++ first :: (word ++ second :: back))
    (free : ∀ c ∈ word, isBlank c = false) (nonempty : word ≠ []) : word ∈ words cs := by
  have parted := congrArg words shape
  rw [words_append_cons _ _ blank.2.1, words_append_cons _ _ blank.2.2, words_eq_singleton free nonempty,
    ← List.nil_append (b :: cs), words_append_cons _ _ blank.1] at parted
  have same : words cs = words front ++ ([word] ++ words back) := parted
  rw [same]
  simp

end Words

end FilterQuery.Text
