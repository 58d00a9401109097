import FilterQuery.Proofs.Text.LetterCase
import FilterQuery.Proofs.Value.Numbers

/-!
Tokens that differ in letter case. Main statement: they are read as values that differ in letter case
inside their texts, and in nothing else (`ofToken_alike`).
-/
namespace FilterQuery

open Text Decimal

namespace Decimal.Literal

variable {l : Literal} {cs ds : List Char} {negative : Bool} {exponent : Option Int}

theorem caseless_of_isDigit {c : Char} (digit : c.isDigit = true) : Caseless c := by
  have bounds : 48 ≤ c.toNat ∧ c.toNat ≤ 57 := Char.isDigit_iff_toNat.mp digit
  refine ⟨(Value.plain_of_numeral (.inl digit)).1, ?_⟩
  rw [← Bool.not_eq_true, isLower_iff]
  omega

theorem SpellsSign.caseless (spells : SpellsSign negative cs) : ∀ c ∈ cs, Caseless c := by
  cases spells with
  | minus => exact List.forall_mem_singleton.mpr (by decide)
  | plus => exact List.forall_mem_singleton.mpr (by decide)
  | none => exact List.forall_mem_nil _

theorem caseless_body (written : l.Written) : ∀ c ∈ l.body, Caseless c := by
  intro c member
  rcases List.mem_append.mp member with whole | behind
  · exact caseless_of_isDigit (written.whole c whole)
  · cases fraction : l.fraction with
    | none => simp [fraction] at behind
    | some digits =>
      rw [fraction] at behind
      rcases List.mem_cons.mp behind with rfl | inFraction
      · decide
      · exact caseless_of_isDigit (written.fraction c (by simpa [fraction] using inFraction))

/-- The letter in front of an exponent is a small or a capital one. -/
theorem exponentLetter_of_toLower {d : Char} (small : d.toLower = 'e') : d = 'e' ∨ d = 'E' := by
  rcases toLower_cases d with fixed | ⟨_, _, shifted⟩
  · exact .inl (fixed.symm.trans small)
  · rw [small] at shifted
    exact .inr (Char.toNat_inj.mp (by simpa using shifted.symm))

theorem SpellsExponent.of_sameText (spells : SpellsExponent exponent cs) (same : sameText cs ds) :
    SpellsExponent exponent ds := by
  cases spells with
  | none =>
    rw [List.length_eq_zero_iff.mp (length_eq_of_sameText same).symm]
    exact .none
  | @some e negative sign digits letter signed all nonempty =>
    have caseless : ∀ c ∈ sign ++ digits, Caseless c := by
      intro c member
      rcases List.mem_append.mp member with front | back
      · exact signed.caseless c front
      · exact caseless_of_isDigit (all c back)
    cases ds with
    | nil => cases length_eq_of_sameText same
    | cons d ds =>
      obtain ⟨first, later⟩ := sameText_cons.mp same
      rw [eq_of_sameText caseless later]
      have small : d.toLower = 'e' := by
        rw [← beq_iff_eq.mp first]
        rcases letter with rfl | rfl <;> decide
      exact .some (exponentLetter_of_toLower small) signed all nonempty

theorem Spells.of_sameText (spells : l.Spells cs) (same : sameText cs ds) : l.Spells ds := by
  obtain ⟨written, sign, exponent, rfl, signed, spelt⟩ := spells
  obtain ⟨front, rest, rfl, frontLower, restLower⟩ := List.map_eq_append_iff.mp
    ((sameText_iff.mp same).symm.trans List.map_append)
  obtain ⟨middle, back, rfl, middleLower, backLower⟩ := List.map_eq_append_iff.mp
    (restLower.trans List.map_append)
  rw [eq_of_sameText signed.caseless (sameText_iff.mpr frontLower.symm),
    eq_of_sameText (caseless_body written) (sameText_iff.mpr middleLower.symm)]
  exact ⟨written, sign, back, rfl, signed, spelt.of_sameText (sameText_iff.mpr backLower.symm)⟩

theorem read?_of_sameText (same : sameText cs ds) : read? cs = read? ds := by
  ext l
  rw [read?_eq_some_iff, read?_eq_some_iff]
  exact ⟨fun spells => spells.of_sameText same,
    fun spells => spells.of_sameText (sameText_iff.mpr (sameText_iff.mp same).symm)⟩

end Decimal.Literal

namespace Value

/-- Values that differ in the case of ASCII letters inside their texts, and in nothing else. -/
inductive Alike : Value → Value → Prop
  | null : Alike null null
  | bool (b : Bool) : Alike (bool b) (bool b)
  | int (i : Int64) : Alike (int i) (int i)
  | float (x : Binary64) : Alike (float x) (float x)
  | text {s t : String} : sameText s.toList t.toList → Alike (text s) (text t)
  | list {items others : List Value} : List.Forall₂ Alike items others → Alike (list items) (list others)

variable {cs ds : List Char}

theorem alike_text (same : sameText cs ds) : (text (String.ofList cs)).Alike (text (String.ofList ds)) :=
  .text (by simpa using same)

theorem IsNumber.alike {v : Value} (number : v.IsNumber) : v.Alike v := by
  cases v with
  | int i => exact .int i
  | float x => exact .float x
  | _ => cases number

theorem caseless_of_isQuote {q : Char} (quote : isQuote q = true) : Caseless q := by
  have either : q = '\'' ∨ q = '"' := by simpa [isQuote] using quote
  rcases either with rfl | rfl <;> decide

theorem unquote?_lower (cs : List Char) :
    unquote? (cs.map Char.toLower) = (unquote? cs).map (List.map Char.toLower) := by
  ext inner
  simp only [unquote?_eq_some_iff, Option.map_eq_some_iff]
  constructor
  · rintro ⟨q, quote, lower⟩
    have mark := caseless_of_isQuote quote
    obtain ⟨other, shape, lower⟩ := (map_toLower_eq_enclosed_iff mark mark).mp lower
    exact ⟨other, ⟨q, quote, shape⟩, lower⟩
  · rintro ⟨other, ⟨q, quote, shape⟩, lower⟩
    have mark := caseless_of_isQuote quote
    exact ⟨q, quote, (map_toLower_eq_enclosed_iff mark mark).mpr ⟨other, shape, lower⟩⟩

theorem unwrap?_lower (cs : List Char) :
    unwrap? (cs.map Char.toLower) = (unwrap? cs).map (List.map Char.toLower) := by
  ext inner
  rw [unwrap?_eq_some_iff, map_toLower_eq_enclosed_iff (by decide) (by decide), Option.map_eq_some_iff]
  simp only [unwrap?_eq_some_iff]

theorem isEmpty_trim_of_sameText (same : sameText cs ds) : (trim cs).isEmpty = (trim ds).isEmpty := by
  rw [Bool.eq_iff_iff, List.isEmpty_iff_length_eq_zero, List.isEmpty_iff_length_eq_zero,
    length_eq_of_sameText (sameText_trim same)]

theorem ofScalar_alike (same : sameText cs ds) : (ofScalar cs).Alike (ofScalar ds) := by
  have trimmed := sameText_trim same
  have lower := sameText_iff.mp trimmed
  have word : ∀ w, sameText (trim cs) w = sameText (trim ds) w := fun w => by
    rw [sameText, sameText, lower]
  have quoted : (unquote? (trim cs)).map (List.map Char.toLower) =
      (unquote? (trim ds)).map (List.map Char.toLower) := by
    rw [← unquote?_lower, lower, unquote?_lower]
  rw [ofScalar, ofScalar]
  simp only [isEmpty_trim_of_sameText same, word, Literal.read?_of_sameText trimmed]
  split_ifs
  · exact .null
  · exact .bool true
  · exact .bool false
  · rcases map_eq_map_cases quoted with ⟨here, there⟩ | ⟨inner, other, here, there, same⟩
    · rw [here, there]
      cases read : (Literal.read? (trim ds)).bind ofLiteral? with
      | none => exact alike_text trimmed
      | some v =>
        obtain ⟨l, _, value⟩ := Option.bind_eq_some_iff.mp read
        exact (isNumber_of_ofLiteral? value).alike
    · rw [here, there]
      exact alike_text (sameText_iff.mpr same)

theorem ofItems_alike (same : sameText cs ds) : List.Forall₂ Alike (ofItems cs) (ofItems ds) := by
  have comma : ∀ c : Char, (c.toLower == ',') = (c == ',') := by
    intro c
    have caseless : Caseless ',' := by decide
    rw [Bool.eq_iff_iff, beq_iff_eq, beq_iff_eq, caseless.toLower_eq_iff]
  have parts : List.Forall₂ (fun a b => sameText a b) (pieces (· == ',') cs) (pieces (· == ',') ds) := by
    rw [forall₂_sameText_iff, ← pieces_lower comma, ← pieces_lower comma, sameText_iff.mp same]
  rw [ofItems, ofItems, isEmpty_trim_of_sameText same]
  split
  · exact .nil
  · rw [List.forall₂_map_left_iff, List.forall₂_map_right_iff]
    exact parts.imp fun _ _ => ofScalar_alike

/-- Tokens that are the same up to case are read as values that are the same up to case. -/
theorem ofToken_alike (same : sameText cs ds) : (ofToken cs).Alike (ofToken ds) := by
  have wrapped : (unwrap? (trim cs)).map (List.map Char.toLower) =
      (unwrap? (trim ds)).map (List.map Char.toLower) := by
    rw [← unwrap?_lower, sameText_iff.mp (sameText_trim same), unwrap?_lower]
  rw [ofToken, ofToken]
  rcases map_eq_map_cases wrapped with ⟨here, there⟩ | ⟨body, other, here, there, inside⟩
  · rw [here, there]
    exact ofScalar_alike same
  · rw [here, there]
    exact .list (ofItems_alike (sameText_iff.mpr inside))

end Value

end FilterQuery
