import FilterQuery.Proofs.Expression.Compound
import FilterQuery.Proofs.Outcome
import FilterQuery.Proofs.Value.LetterCase

/-!
Expressions that differ in letter case. Main statement: they are read as filters that differ in letter case
inside their texts, and in nothing else, or they are both refused (`Filter.parse_alike`).
-/
namespace FilterQuery

open Text Expression

namespace Expression

variable {keyword cs ds : List Char}

section Separators

theorem afterSeparator?_lower (keyword cs : List Char) :
    afterSeparator? keyword (cs.map Char.toLower) =
      (afterSeparator? keyword cs).map (List.map Char.toLower) := by
  have first : (cs.map Char.toLower).head?.all (!isBlank ·) = cs.head?.all (!isBlank ·) := by
    cases cs with
    | nil => rfl
    | cons c cs => simp [isBlank_toLower]
  rw [afterSeparator?, afterSeparator?, first, dropWhile_isBlank_lower, after?_lower]
  split
  · rfl
  · cases after? keyword (cs.dropWhile isBlank) with
    | none => rfl
    | some rest =>
      cases rest with
      | nil => rfl
      | cons c rest =>
        simp only [Option.map_some, List.map_cons, isBlank_toLower, dropWhile_isBlank_lower]
        split <;> rfl

theorem piecesBetween_lower (keyword cs : List Char) :
    piecesBetween keyword (cs.map Char.toLower) =
      (piecesBetween keyword cs).map (List.map Char.toLower) := by
  fun_induction piecesBetween keyword cs with
  | case1 => exact piecesBetween_of_nil List.map_nil
  | case2 c cs rest found _ ih =>
    have lowered := afterSeparator?_lower keyword (c :: cs)
    rw [found, Option.map_some] at lowered
    rw [piecesBetween_of_some lowered, ih]
    rfl
  | case3 c cs missed ih =>
    have lowered := afterSeparator?_lower keyword (c :: cs)
    rw [missed, List.map_cons, Option.map_none] at lowered
    obtain ⟨first, others, shape⟩ := List.exists_cons_of_ne_nil (piecesBetween_ne_nil keyword cs)
    rw [List.map_cons, piecesBetween_of_none lowered, ih, shape]
    rfl

theorem split_sameText (connective : Connective) (same : sameText cs ds) :
    List.Forall₂ (fun a b => sameText a b) (split connective cs) (split connective ds) := by
  have parts : List.Forall₂ (fun a b => sameText a b) (piecesBetween connective.keyword.toList cs)
      (piecesBetween connective.keyword.toList ds) := by
    rw [forall₂_sameText_iff, ← piecesBetween_lower, ← piecesBetween_lower, sameText_iff.mp same]
  rw [split, split, List.forall₂_map_left_iff, List.forall₂_map_right_iff]
  exact parts.imp fun _ _ => sameText_trim

theorem connective?_of_sameText (same : sameText cs ds) : connective? cs = connective? ds := by
  have occurs : ∀ needle, (find? needle cs).isSome = (find? needle ds).isSome := by
    intro needle
    have lowered := congrArg Option.isSome (find?_lower needle cs)
    rw [sameText_iff.mp same, find?_lower, Option.isSome_map, Option.isSome_map] at lowered
    exact lowered.symm
  simp only [connective?, occurs]

end Separators

section Operators

def OperatorMatch.lower (m : OperatorMatch) : OperatorMatch := { m with place := m.place.lower }

theorem operator?_lower (cs : List Char) :
    operator? (cs.map Char.toLower) = (operator? cs).map OperatorMatch.lower := by
  rw [operator?, operator?, List.map_findSome?]
  congr 1
  funext row
  simp [find?_lower, Function.comp_def, OperatorMatch.lower]

/-- Operators that are found at places that are the same up to case are the same, and so are the texts
around them up to case. -/
theorem alike_of_lower_eq {m n : OperatorMatch} (lower : m.lower = n.lower) :
    m.operator = n.operator ∧ sameText m.field n.field ∧ sameText m.rest n.rest := by
  simp only [OperatorMatch.lower, OperatorMatch.mk.injEq, Occurrence.lower, Occurrence.mk.injEq] at lower
  obtain ⟨operator, before, _, after⟩ := lower
  exact ⟨operator, sameText_trim (sameText_iff.mpr before), sameText_trim (sameText_iff.mpr after)⟩

end Operators

end Expression

/-- Conditions that differ in the case of ASCII letters inside their texts, and in nothing else. -/
structure Condition.Alike (c d : Condition) : Prop where
  field : sameText c.field.toList d.field.toList
  operator : c.operator = d.operator
  value : c.value.Alike d.value
  raw : sameText c.raw.toList d.raw.toList

/-- Filters with the same connective and with as many conditions, which are alike one by one. -/
structure Filter.Alike (f g : Filter) : Prop where
  isCompound : f.isCompound = g.isCompound
  connective : f.connective = g.connective
  conditions : List.Forall₂ Condition.Alike f.conditions g.conditions

/-- Both faults are that there is no operator in a text, and the texts are the same up to case. -/
inductive Fault.Alike : Fault → Fault → Prop
  | noOperator {e f : String} : sameText e.toList f.toList → Alike (.noOperator e) (.noOperator f)

variable {cs ds : List Char}

theorem Condition.ofChars_alike (same : sameText cs ds) :
    Concur Fault.Alike Condition.Alike (Condition.ofChars cs) (Condition.ofChars ds) := by
  have trimmed := sameText_trim same
  have texts : sameText (String.ofList (trim cs)).toList (String.ofList (trim ds)).toList := by simpa using trimmed
  have operators : (operator? (trim cs)).map OperatorMatch.lower = (operator? (trim ds)).map OperatorMatch.lower := by
    rw [← operator?_lower, sameText_iff.mp trimmed, operator?_lower]
  simp only [Condition.ofChars]
  rcases map_eq_map_cases operators with ⟨here, there⟩ | ⟨m, n, here, there, lower⟩
  · rw [here, there]
    exact .error (.noOperator texts)
  · obtain ⟨operator, field, rest⟩ := alike_of_lower_eq lower
    rw [here, there]
    refine .ok ⟨by simpa using field, operator, ?_, texts⟩
    simp only [operator]
    split
    · exact .null
    · exact Value.ofToken_alike rest

theorem Filter.ofChars_alike (same : sameText cs ds) :
    Concur Fault.Alike Filter.Alike (Filter.ofChars cs) (Filter.ofChars ds) := by
  have trimmed := sameText_trim same
  simp only [Filter.ofChars, connective?_of_sameText trimmed]
  cases connective? (trim ds) with
  | none =>
    exact (Condition.ofChars_alike trimmed).map fun c d alike => ⟨rfl, rfl, .cons alike .nil⟩
  | some connective =>
    have parts := split_sameText connective trimmed
    have each := fun a b (alike : sameText a b) => Condition.ofChars_alike alike
    exact (Concur.mapM each parts).map fun cs ds conditions => ⟨rfl, rfl, conditions⟩

/-- Expressions that are the same up to the case of ASCII letters are both read, as filters that are the
same up to case inside their texts, or both refused, for texts that are the same up to case. -/
theorem Filter.parse_alike {e f : String} (same : sameText e.toList f.toList) :
    Concur Fault.Alike Filter.Alike (Filter.parse e) (Filter.parse f) := Filter.ofChars_alike same

theorem Filter.parse_alike_shouted :
    (Filter.parse "m.name LIKE 'Ada%' and Age in (1, 'x', 2e1)").isOk ∧
      Concur Fault.Alike Filter.Alike (Filter.parse "m.name LIKE 'Ada%' and Age in (1, 'x', 2e1)")
        (Filter.parse "M.NAME like 'ADA%' AND AGE IN (1, 'X', 2E1)") ∧
      (Filter.parse "nothing to see").isOk = false ∧
      Concur Fault.Alike Filter.Alike (Filter.parse "nothing to see") (Filter.parse "Nothing To See") :=
  ⟨by decide +kernel, Filter.parse_alike (by decide), by decide +kernel, Filter.parse_alike (by decide)⟩

end FilterQuery
