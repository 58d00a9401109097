import FilterQuery.Proofs.Decimal.Overflow
import FilterQuery.Proofs.Value.Integers

/-!
The tokens that are read as numbers. Main statement: they are the spellings of decimal literals below the
edge from where on all is rounded to infinity, and every other token that is no keyword and that has no
quotes or parentheses around it is a text (`coerce_isNumber_iff`).
-/
namespace FilterQuery.Value

open Text Decimal

def IsNumber : Value → Prop
  | int _ | float _ => True
  | null | bool _ | text _ | list _ => False

/-- The text is a decimal literal, and its value is smaller than the middle between the largest floating
point number and `2 ^ 1024`. -/
def Numeric (cs : List Char) : Prop := ∃ l : Literal, l.Spells cs ∧ |l.value| < 2 ^ 1024 - 2 ^ 970

/-- The text stands for something else than itself and a number: it is empty or a keyword, or it has quotes
or parentheses around it. -/
inductive Reserved : List Char → Prop
  | empty : Reserved []
  | keyword {cs : List Char} {word : String} : word ∈ ["null", "true", "false"] →
      sameText cs word.toList → Reserved cs
  | quoted {q : Char} (inner : List Char) : isQuote q = true → Reserved (q :: (inner ++ [q]))
  | wrapped (inner : List Char) : Reserved ('(' :: (inner ++ [')']))

section Marks

variable {cs rest inner : List Char}

theorem getLast?_eq_some_iff_dropLast {c : Char} :
    rest.getLast? = some c ∧ rest.dropLast = inner ↔ rest = inner ++ [c] := by
  constructor
  · rintro ⟨last, rfl⟩
    exact (List.dropLast_append_getLast? c last).symm
  · rintro rfl
    simp

theorem unquote?_eq_some_iff :
    unquote? cs = some inner ↔ ∃ q, isQuote q = true ∧ cs = q :: (inner ++ [q]) := by
  cases cs with
  | nil => simp [unquote?]
  | cons q rest =>
    rw [unquote?]
    simp [← getLast?_eq_some_iff_dropLast, and_assoc]

theorem unwrap?_eq_some_iff : unwrap? cs = some inner ↔ cs = '(' :: (inner ++ [')']) := by
  constructor
  · intro wrapped
    unfold unwrap? at wrapped
    split at wrapped
    · next rest =>
      simp at wrapped
      rw [getLast?_eq_some_iff_dropLast.mp wrapped]
    · cases wrapped
  · rintro rfl
    simp [unwrap?]

end Marks

section Literals

variable {l : Literal} {v : Value} {cs : List Char}

/-- An integer that can be written in 64 bits is far below the edge. -/
theorem lt_edge_of_inRange (inRange : InRange l.value) : |l.value| < Binary64.overflowEdge := by
  obtain ⟨n, value⟩ := inRange
  have low := n.le_toInt
  have high := n.toInt_lt
  have size : |(n.toInt : ℚ)| ≤ 9223372036854775808 := by
    rw [abs_le]
    constructor
    · exact_mod_cast low
    · exact_mod_cast high.le
  have power : (9223372036854775808 : ℚ) = (2 : ℚ) ^ (63 : ℤ) := by norm_num
  have less : (2 : ℚ) ^ (63 : ℤ) < (2 : ℚ) ^ (1023 : ℤ) := zpow_lt_zpow_right₀ (by norm_num) (by norm_num)
  have edge := less.trans Binary64.two_pow_lt_overflowEdge
  rw [← power] at edge
  rw [value]
  exact size.trans_lt edge

/-- A literal with a point is read as the number that it is rounded to, unless that is infinite. -/
theorem ofLiteral?_of_point (point : l.fraction.isSome) :
    ofLiteral? l = if l.rounded.isFinite then some (float l.rounded) else none := by
  obtain ⟨digits, fraction⟩ := Option.isSome_iff_exists.mp point
  have number : Binary64.ofDecimal l.negative l.significand l.power = l.rounded := rfl
  rw [ofLiteral?, number, fraction]
  cases l.rounded.isFinite <;> simp

theorem isSome_ofLiteral?_iff : (ofLiteral? l).isSome ↔ |l.value| < Binary64.overflowEdge := by
  rw [← l.isFinite_rounded_iff]
  by_cases point : l.fraction.isSome
  · rw [ofLiteral?_of_point point]
    cases l.rounded.isFinite <;> simp
  · have noPoint := Option.not_isSome_iff_eq_none.mp point
    by_cases written : l.exponent = none ∧ InRange l.value
    · obtain ⟨n, value⟩ := written.2
      have read := (ofLiteral?_of_inRange noPoint written.1 written.2).mpr value
      have finite := l.isFinite_rounded_iff.mpr (lt_edge_of_inRange written.2)
      exact iff_of_true (Option.isSome_iff_exists.mpr ⟨_, read⟩) finite
    · rw [ofLiteral?_rounded noPoint written]
      cases l.rounded.isFinite <;> simp

theorem isNumber_of_ofLiteral? (read : ofLiteral? l = some v) : v.IsNumber := by
  rcases ofLiteral?_cases read with ⟨n, rfl⟩ | ⟨x, _, rfl⟩
  · trivial
  · trivial

end Literals

section Tokens

/-- What is not reserved is read as a number if it is one, and else as the text that it is. -/
theorem ofToken_cases (token : List Char) :
    Reserved (trim token) ∧ ¬(ofToken token).IsNumber ∨
      ofToken token =
        ((Literal.read? (trim token)).bind ofLiteral?).getD (text (String.ofList (trim token))) := by
  rw [ofToken]
  cases wrapped : unwrap? (trim token) with
  | some body =>
    rw [unwrap?_eq_some_iff.mp wrapped]
    exact .inl ⟨.wrapped body, id⟩
  | none =>
    show _ ∧ ¬(ofScalar token).IsNumber ∨ ofScalar token = _
    rw [ofScalar]
    split_ifs with isNull isTrue isFalse
    · refine .inl ⟨?_, id⟩
      rcases Bool.or_eq_true_iff.mp isNull with none | keyword
      · rw [List.isEmpty_iff.mp none]
        exact .empty
      · exact .keyword (by decide) keyword
    · exact .inl ⟨.keyword (by decide) isTrue, id⟩
    · exact .inl ⟨.keyword (by decide) isFalse, id⟩
    · cases quoted : unquote? (trim token) with
      | some inner =>
        obtain ⟨q, isQuote, shape⟩ := unquote?_eq_some_iff.mp quoted
        rw [shape]
        exact .inl ⟨.quoted inner isQuote, id⟩
      | none => exact .inr rfl

theorem numeric_iff {cs : List Char} : Numeric cs ↔ ((Literal.read? cs).bind ofLiteral?).isSome := by
  constructor
  · rintro ⟨l, spells, small⟩
    rw [Literal.read?_of_spells spells]
    exact isSome_ofLiteral?_iff.mpr small
  · intro some
    obtain ⟨v, read⟩ := Option.isSome_iff_exists.mp some
    obtain ⟨l, spelt, value⟩ := Option.bind_eq_some_iff.mp read
    exact ⟨l, Literal.spells_of_read? spelt, isSome_ofLiteral?_iff.mp (by rw [value]; rfl)⟩

theorem ofToken_isNumber_iff (token : List Char) : (ofToken token).IsNumber ↔ Numeric (trim token) := by
  constructor
  · intro number
    rcases ofToken_cases token with ⟨_, notNumber⟩ | shape
    · exact absurd number notNumber
    · rw [numeric_iff]
      cases read : (Literal.read? (trim token)).bind ofLiteral? with
      | some v => rfl
      | none =>
        rw [shape, read] at number
        exact absurd number id
  · rintro ⟨l, spells, small⟩
    obtain ⟨v, read⟩ := Option.isSome_iff_exists.mp (isSome_ofLiteral?_iff.mpr small)
    rw [ofToken_of_spells spells, read]
    exact isNumber_of_ofLiteral? read

theorem ofToken_of_plain {token : List Char} (notReserved : ¬Reserved (trim token))
    (notNumeric : ¬Numeric (trim token)) : ofToken token = text (String.ofList (trim token)) := by
  have shape := (ofToken_cases token).resolve_left fun reserved => notReserved reserved.1
  rw [numeric_iff, Option.not_isSome_iff_eq_none] at notNumeric
  rw [shape, notNumeric]
  rfl

/-- A token is read as a number exactly if it is a decimal literal below the edge from where on all is rounded
to infinity; with a point it is read as the floating point number that it is rounded to. A token that is
neither such a literal nor reserved is read as the text that it is, without the blanks around it. -/
theorem coerce_isNumber_iff (token : String) :
    ((coerce (some token)).IsNumber ↔ Numeric (trim token.toList)) ∧
    (∀ l : Literal, l.Spells (trim token.toList) → |l.value| < 2 ^ 1024 - 2 ^ 970 → '.' ∈ trim token.toList →
      coerce (some token) = float l.rounded) ∧
    (¬Reserved (trim token.toList) → ¬Numeric (trim token.toList) →
      coerce (some token) = text (String.ofList (trim token.toList))) := by
  refine ⟨ofToken_isNumber_iff token.toList, fun l spells small point => ?_, ofToken_of_plain⟩
  have finite := l.isFinite_rounded_iff.mpr small
  rw [coerce, ofToken_of_spells spells, ofLiteral?_of_point (spells.point_mem_iff.mp point), if_pos finite]
  rfl

theorem coerce_isNumber_iff_dotted :
    coerce (some " .5e+1 ") = float (.ofBits 0x4014000000000000) ∧ coerce (some "1.2.3") = text "1.2.3" := by
  have spells : Literal.Spells ⟨false, [], some ['5'], some 1⟩ (trim " .5e+1 ".toList) :=
    Literal.spells_of_read? (by decide)
  have small := isSome_ofLiteral?_iff (l := ⟨false, [], some ['5'], some 1⟩).mp (by decide +kernel)
  have notReserved : ¬Reserved (trim "1.2.3".toList) := by
    have first : (trim "1.2.3".toList).head? = some '1' := by decide
    have noWord : ∀ word ∈ ["null", "true", "false"], ¬sameText (trim "1.2.3".toList) word.toList := by decide
    intro reserved
    generalize trim "1.2.3".toList = cs at first noWord reserved
    cases reserved with
    | empty => cases first
    | keyword member same => exact noWord _ member same
    | quoted inner quote =>
      cases first
      exact absurd quote (by decide)
    | wrapped inner => simp at first
  have notNumeric : ¬Numeric (trim "1.2.3".toList) := by
    rw [numeric_iff]
    decide
  refine ⟨?_, (coerce_isNumber_iff "1.2.3").2.2 notReserved notNumeric⟩
  rw [(coerce_isNumber_iff " .5e+1 ").2.1 _ spells small (by decide)]
  decide +kernel

-- Digits of other scripts, words and what is too large are no numbers either.
example : coerce (some "٣") = text "٣" ∧ coerce (some "Infinity") = text "Infinity" ∧
    coerce (some "-1e309") = text "-1e309" := by
  decide +kernel

end Tokens

end FilterQuery.Value
