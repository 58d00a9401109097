import FilterQuery.Expression.Parse
import FilterQuery.Proofs.Expression.Needles
import FilterQuery.Proofs.Outcome

/-!
Connectives between conditions. A text is split where a keyword stands between any two blanks
(`two_le_length_split_iff`), but a connective is seen only where it stands between two spaces
(`connective?_eq_some_iff`). Main statement: the two agree exactly if some keyword between spaces goes
with those between other blanks (`connective?_agrees_iff`).
-/
namespace FilterQuery

open Text

namespace Expression

variable {keyword cs rest : List Char} {connective : Connective}

/-- The keyword stands in the text between two blanks. -/
def Between (keyword cs : List Char) : Prop :=
  ∃ front first word second back, cs = front ++ first :: (word ++ second :: back) ∧
    isBlank first = true ∧ isBlank second = true ∧ sameText keyword word

theorem Between.cons {c : Char} (between : Between keyword cs) : Between keyword (c :: cs) := by
  obtain ⟨front, first, word, second, back, rfl, rest⟩ := between
  exact ⟨c :: front, first, word, second, back, rfl, rest⟩

theorem head?_dropWhile_isBlank (cs : List Char) : ∀ c ∈ (cs.dropWhile isBlank).head?, isBlank c = false := by
  intro c atHead
  have stop := List.head?_dropWhile_not isBlank cs
  rw [atHead] at stop
  exact stop

theorem afterSeparator?_append {before word after : List Char}
    (plain : keyword ≠ [] ∧ ∀ c ∈ keyword, isBlank c = false) (someBefore : before ≠ [])
    (someAfter : after ≠ []) (blanks : ∀ b ∈ before ++ after, isBlank b = true)
    (same : sameText keyword word) (stop : ∀ c ∈ rest.head?, isBlank c = false) :
    afterSeparator? keyword (before ++ (word ++ (after ++ rest))) = some rest := by
  obtain ⟨b, before, rfl⟩ := List.exists_cons_of_ne_nil someBefore
  obtain ⟨a, after, rfl⟩ := List.exists_cons_of_ne_nil someAfter
  have blank : isBlank b = true := blanks b (by simp)
  have blankAfter : isBlank a = true := blanks a (by simp)
  have front : ∀ c ∈ b :: before, isBlank c = true := fun c member =>
    blanks c (List.mem_append_left _ member)
  have back : ∀ c ∈ after, isBlank c = true := fun c member =>
    blanks c (List.mem_append_right _ (List.mem_cons_of_mem _ member))
  have nonempty : word ≠ [] := by
    rintro rfl
    exact plain.1 (List.length_eq_zero_iff.mp (length_eq_of_sameText same))
  obtain ⟨w, word, rfl⟩ := List.exists_cons_of_ne_nil nonempty
  have notBlank : isBlank w = false := isBlank_of_sameText same plain.2 w List.mem_cons_self
  have dropped : (b :: before ++ (w :: word ++ (a :: after ++ rest))).dropWhile isBlank =
      w :: word ++ (a :: after ++ rest) := by
    rw [List.dropWhile_append_of_pos front]
    simp [notBlank]
  have found : after? keyword (w :: word ++ (a :: after ++ rest)) = some (a :: after ++ rest) :=
    after?_eq_some_iff.mpr ⟨w :: word, rfl, same⟩
  have ended : (after ++ rest).dropWhile isBlank = rest := by
    rw [List.dropWhile_append_of_pos back]
    cases rest with
    | nil => rfl
    | cons c rest => simp [stop c rfl]
  unfold afterSeparator?
  rw [if_neg (by simp [blank]), dropped, found]
  simp [blankAfter, ended]

/-- A separator is a run of blanks, the keyword, and all blanks behind it. -/
theorem afterSeparator?_eq_some_iff (plain : keyword ≠ [] ∧ ∀ c ∈ keyword, isBlank c = false) :
    afterSeparator? keyword cs = some rest ↔
      ∃ before word after, cs = before ++ (word ++ (after ++ rest)) ∧ before ≠ [] ∧ after ≠ [] ∧
        (∀ b ∈ before ++ after, isBlank b = true) ∧ sameText keyword word ∧
        ∀ c ∈ rest.head?, isBlank c = false := by
  constructor
  · intro follows
    unfold afterSeparator? at follows
    split at follows
    · cases follows
    · next start =>
      split at follows
      · next c tail here =>
        split at follows
        · next blank =>
          cases follows
          obtain ⟨word, shape, same⟩ := after?_eq_some_iff.mp here
          refine ⟨cs.takeWhile isBlank, word, c :: tail.takeWhile isBlank, ?_, ?_, by simp, ?_, same,
            head?_dropWhile_isBlank tail⟩
          · rw [List.cons_append, List.takeWhile_append_dropWhile, ← shape,
              List.takeWhile_append_dropWhile]
          · intro none
            cases cs with
            | nil => simp at start
            | cons d cs =>
              have notBlank : ¬isBlank d = true := by
                intro isBlank
                simp [isBlank] at none
              simp [notBlank] at start
          · intro b member
            rcases List.mem_append.mp member with inFront | behind
            · exact List.mem_takeWhile_imp inFront
            · rcases List.mem_cons.mp behind with rfl | later
              · exact blank
              · exact List.mem_takeWhile_imp later
        · cases follows
      · cases follows
  · rintro ⟨before, word, after, rfl, someBefore, someAfter, blanks, same, stop⟩
    exact afterSeparator?_append plain someBefore someAfter blanks same stop

theorem Between.of_separator (plain : keyword ≠ [] ∧ ∀ c ∈ keyword, isBlank c = false)
    (found : afterSeparator? keyword cs = some rest) : Between keyword cs := by
  obtain ⟨before, word, after, rfl, someBefore, someAfter, blanks, same, _⟩ :=
    (afterSeparator?_eq_some_iff plain).mp found
  obtain ⟨second, after, rfl⟩ := List.exists_cons_of_ne_nil someAfter
  rcases List.eq_nil_or_concat before with rfl | ⟨front, first, rfl⟩
  · exact absurd rfl someBefore
  · exact ⟨front, first, word, second, after ++ rest, by simp, blanks first (by simp),
      blanks second (by simp), same⟩

theorem piecesBetween_ne_nil (keyword cs : List Char) : piecesBetween keyword cs ≠ [] := by
  fun_induction piecesBetween keyword cs with
  | case1 => simp
  | case2 => simp
  | case3 c cs found ih => simpa [← List.length_eq_zero_iff] using ih

/-- There is more than one piece exactly if the keyword stands between two blanks. -/
theorem two_le_length_piecesBetween_iff (plain : keyword ≠ [] ∧ ∀ c ∈ keyword, isBlank c = false) :
    2 ≤ (piecesBetween keyword cs).length ↔ Between keyword cs := by
  fun_induction piecesBetween keyword cs with
  | case1 =>
    constructor
    · intro two
      simp at two
    · rintro ⟨front, first, word, second, back, shape, _⟩
      simp at shape
  | case2 c cs rest found shorter ih =>
    have others := List.length_pos_iff.mpr (piecesBetween_ne_nil keyword rest)
    constructor
    · intro _
      exact .of_separator plain found
    · intro _
      rw [List.length_cons]
      omega
  | case3 c cs found ih =>
    rw [List.length_modifyHead, ih]
    constructor
    · exact Between.cons
    · rintro ⟨front, first, word, second, back, shape, blank, blankBehind, same⟩
      cases front with
      | nil =>
        -- The keyword would have been found right here.
        have blanks : ∀ b ∈ [first] ++ second :: back.takeWhile isBlank, isBlank b = true := by
          intro b member
          simp only [List.cons_append, List.nil_append, List.mem_cons] at member
          rcases member with rfl | rfl | later
          · exact blank
          · exact blankBehind
          · exact List.mem_takeWhile_imp later
        have here := afterSeparator?_append plain (by simp) (by simp) blanks same
          (head?_dropWhile_isBlank back)
        rw [List.cons_append, List.cons_append, List.takeWhile_append_dropWhile, List.nil_append] at here
        rw [shape] at found
        cases here.symm.trans found
      | cons d front =>
        cases shape
        exact ⟨front, first, word, second, back, rfl, blank, blankBehind, same⟩

def Delimited (connective : Connective) (cs : List Char) : Prop := Between connective.keyword.toList cs

theorem two_le_length_split_iff :
    2 ≤ (split connective cs).length ↔ Delimited connective cs := by
  rw [split, List.length_map]
  exact two_le_length_piecesBetween_iff (keyword_plain connective)

theorem length_split_pos (connective : Connective) (cs : List Char) : 0 < (split connective cs).length := by
  rw [split, List.length_map]
  exact List.length_pos_iff.mpr (piecesBetween_ne_nil _ _)

/-- The keyword stands in the text between two spaces. -/
def Spaced (connective : Connective) (cs : List Char) : Prop := Occurs (separator connective) cs

instance (connective : Connective) (cs : List Char) : Decidable (Spaced connective cs) :=
  inferInstanceAs (Decidable (Occurs _ _))

theorem Spaced.delimited (spaced : Spaced connective cs) : Delimited connective cs := by
  obtain ⟨front, _, rfl, found, back, rfl, same⟩ := spaced
  obtain ⟨word, rfl, sameWord⟩ := sameText_between same
  exact ⟨front, ' ', word, ' ', back, by simp, by decide, by decide, sameWord⟩

theorem isSome_find?_separator_iff :
    (find? (separator connective) cs).isSome ↔ Spaced connective cs := by
  have nonempty : separator connective ≠ [] := List.cons_ne_nil _ _
  rw [← not_iff_not, Option.not_isSome_iff_eq_none, find?_eq_none_iff nonempty]
  rfl

/-- The connective that is seen is the first of those that stand between two spaces. -/
theorem connective?_eq (cs : List Char) : connective? cs =
    if Spaced .and cs then some .and else if Spaced .or cs then some .or else none := by
  have seen : ∀ connective : Connective,
      (find? (' ' :: connective.keyword.toList ++ [' ']) cs).isSome = decide (Spaced connective cs) := by
    intro connective
    rw [Bool.eq_iff_iff, decide_eq_true_iff]
    exact isSome_find?_separator_iff
  simp only [connective?, Connective.all, List.find?_cons, List.find?_nil, seen]
  by_cases one : Spaced .and cs <;> by_cases other : Spaced .or cs <;> simp [one, other]

theorem spaced_of_connective? (seen : connective? cs = some connective) : Spaced connective cs := by
  rw [connective?_eq] at seen
  split_ifs at seen with one other
  · exact Option.some.inj seen ▸ one
  · exact Option.some.inj seen ▸ other

theorem not_spaced_of_connective? (seen : connective? cs = none) (connective : Connective) :
    ¬Spaced connective cs := by
  rw [connective?_eq] at seen
  split_ifs at seen with one other
  cases connective with
  | and => exact one
  | or => exact other

/-- A filter is the compound of the conditions that the pieces of its text are, or the one condition that
its text is. -/
theorem ofChars_cases {filter : Filter} (ok : Filter.ofChars cs = .ok filter) :
    (∃ connective conditions, connective? (trim cs) = some connective ∧
        (split connective (trim cs)).mapM Condition.ofChars = .ok conditions ∧
        filter = .compound connective conditions) ∨
      ∃ c, connective? (trim cs) = none ∧ Condition.ofChars (trim cs) = .ok c ∧ filter = .single c := by
  unfold Filter.ofChars at ok
  cases seen : connective? (trim cs) with
  | some connective =>
    simp only [seen, Except.map] at ok
    split at ok
    · cases ok
    · next conditions read => exact .inl ⟨connective, conditions, rfl, read, (Except.ok.inj ok).symm⟩
  | none =>
    simp only [seen, Except.map] at ok
    split at ok
    · cases ok
    · next c read => exact .inr ⟨c, rfl, read, (Except.ok.inj ok).symm⟩

theorem several_of_mapM_split (seen : connective? cs = some connective) {conditions : List Condition}
    (read : (split connective cs).mapM Condition.ofChars = .ok conditions) : 2 ≤ conditions.length := by
  rw [length_of_mapM_eq_ok read]
  exact two_le_length_split_iff.mpr (spaced_of_connective? seen).delimited

/-- A filter is compound exactly if a connective is seen in its text, and has then several conditions. -/
theorem ofChars_compound {filter : Filter} (ok : Filter.ofChars cs = .ok filter) :
    (filter.isCompound ↔ Spaced .and (trim cs) ∨ Spaced .or (trim cs)) ∧
      (2 ≤ filter.conditions.length ↔ Spaced .and (trim cs) ∨ Spaced .or (trim cs)) := by
  rcases ofChars_cases ok with ⟨connective, conditions, seen, read, rfl⟩ | ⟨c, seen, _, rfl⟩
  · have someSpaced : Spaced .and (trim cs) ∨ Spaced .or (trim cs) := by
      have spaced := spaced_of_connective? seen
      cases connective with
      | and => exact .inl spaced
      | or => exact .inr spaced
    simp [someSpaced, Filter.compound, several_of_mapM_split seen read]
  · simp [not_spaced_of_connective? seen, Filter.single]

/-- What is seen of connectives agrees with what is split exactly if a keyword between other blanks than
spaces is not the only one, and a text with a keyword between spaces is never read as one condition. -/
theorem connective?_agrees_iff (cs : List Char) :
    (((connective? cs = some .and ↔ 2 ≤ (split .and cs).length) ∧
        (connective? cs = some .or ↔ (split .and cs).length = 1 ∧ 2 ≤ (split .or cs).length) ∧
        (connective? cs = none ↔ (split .and cs).length = 1 ∧ (split .or cs).length = 1)) ↔
      (Delimited .and cs → Spaced .and cs) ∧
        (Delimited .or cs → Delimited .and cs ∨ Spaced .or cs)) ∧
    ∀ filter, Filter.ofChars cs = .ok filter →
      (filter.isCompound ↔ Spaced .and (trim cs) ∨ Spaced .or (trim cs)) ∧
        (2 ≤ filter.conditions.length ↔ Spaced .and (trim cs) ∨ Spaced .or (trim cs)) := by
  refine ⟨?_, fun filter => ofChars_compound⟩
  have one : ∀ connective, (split connective cs).length = 1 ↔ ¬2 ≤ (split connective cs).length := by
    intro connective
    have positive := length_split_pos connective cs
    omega
  rw [one, one, two_le_length_split_iff, two_le_length_split_iff, connective?_eq]
  by_cases isAnd : Spaced .and cs
  · simp [isAnd, isAnd.delimited]
  · by_cases isOr : Spaced .or cs
    · have other := isOr.delimited
      by_cases delimited : Delimited .and cs <;> simp [isAnd, isOr, other, delimited]
    · by_cases delimited : Delimited .and cs <;>
        by_cases other : Delimited .or cs <;> simp [isAnd, isOr, other, delimited]

/-- A keyword between tabulators separates two conditions, but is not seen. -/
theorem connective?_disagrees :
    connective? "a = 1\tAND\tb = 2".toList = none ∧
      split .and "a = 1\tAND\tb = 2".toList = ["a = 1".toList, "b = 2".toList] ∧
      (Filter.ofChars "a = 1\tAND\tb = 2".toList).toOption.map (·.conditions.length) = some 1 := by
  decide +kernel

end Expression

end FilterQuery
