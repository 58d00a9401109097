import FilterQuery.Proofs.Text.Search
import Mathlib.Data.List.Forall2

/-!
Texts in lower case. A text in lower case has its blanks, and all that is found in it, where the text has
them. Main statement: the search for a needle in it finds what it finds in the text, in lower case
(`find?_lower`).
-/
namespace FilterQuery.Text

variable {needle cs ds : List Char}

section Case

@[simp] theorem toLower_toLower (c : Char) : c.toLower.toLower = c.toLower := by
  rcases toLower_cases c with same | ⟨low, high, shifted⟩
  · rw [same, same]
  · rcases toLower_cases c.toLower with same | ⟨_, capital, _⟩
    · exact same
    · omega

/-- Options that a function takes to the same option are both empty, or the function takes what is in them to
the same. -/
theorem map_eq_map_cases {α β : Type} {f : α → β} {x y : Option α} (same : x.map f = y.map f) :
    (x = none ∧ y = none) ∨ ∃ a b, x = some a ∧ y = some b ∧ f a = f b := by
  cases x with
  | none => exact .inl ⟨rfl, Option.map_eq_none_iff.mp same.symm⟩
  | some a =>
    obtain ⟨b, there, equal⟩ := Option.map_eq_some_iff.mp same.symm
    exact .inr ⟨a, b, rfl, there, equal.symm⟩

theorem forall₂_sameText_iff {as bs : List (List Char)} :
    List.Forall₂ (fun a b => sameText a b) as bs ↔
      as.map (List.map Char.toLower) = bs.map (List.map Char.toLower) := by
  rw [← List.forall₂_eq_eq_eq]
  simp [List.forall₂_map_left_iff, List.forall₂_map_right_iff, sameText_iff]

end Case

section Blanks

theorem dropWhile_isBlank_lower (cs : List Char) :
    (cs.map Char.toLower).dropWhile isBlank = (cs.dropWhile isBlank).map Char.toLower := by
  have alike : isBlank ∘ Char.toLower = isBlank := funext isBlank_toLower
  rw [List.dropWhile_map, alike]

theorem trim_lower (cs : List Char) : trim (cs.map Char.toLower) = (trim cs).map Char.toLower := by
  simp only [trim, trimEnd, dropWhile_isBlank_lower, ← List.map_reverse]

theorem sameText_trim (same : sameText cs ds) : sameText (trim cs) (trim ds) := by
  rw [sameText_iff, ← trim_lower, ← trim_lower, sameText_iff.mp same]

theorem pieces_lower {separates : Char → Bool} (blind : ∀ c, separates c.toLower = separates c)
    (cs : List Char) :
    pieces separates (cs.map Char.toLower) = (pieces separates cs).map (List.map Char.toLower) := by
  induction cs with
  | nil => rfl
  | cons c cs ih =>
    obtain ⟨first, others, shape⟩ := List.exists_cons_of_ne_nil (pieces_ne_nil separates cs)
    rw [List.map_cons, pieces, pieces, blind, ih]
    split
    · rfl
    · simp [shape]

end Blanks

section Find

def Occurrence.lower (o : Occurrence) : Occurrence :=
  ⟨o.before.map Char.toLower, o.found.map Char.toLower, o.after.map Char.toLower⟩

theorem after?_lower (needle cs : List Char) :
    after? needle (cs.map Char.toLower) = (after? needle cs).map (List.map Char.toLower) := by
  induction needle generalizing cs with
  | nil => rfl
  | cons n needle ih =>
    cases cs with
    | nil => rfl
    | cons c cs =>
      have alike : sameLetter n c.toLower = sameLetter n c := by rw [sameLetter, toLower_toLower, sameLetter]
      rw [List.map_cons, after?, after?, alike, ih]
      cases sameLetter n c <;> rfl

theorem leftmost?_lower (needle cs : List Char) :
    leftmost? needle (cs.map Char.toLower) = (leftmost? needle cs).map Occurrence.lower := by
  induction cs with
  | nil => rfl
  | cons c cs ih =>
    have here := after?_lower needle (c :: cs)
    rw [List.map_cons] at here ⊢
    rw [leftmost?, leftmost?, here]
    cases after? needle (c :: cs) with
    | some rest => simp [Occurrence.lower, List.map_take]
    | none => simp [ih, Function.comp_def, Occurrence.push, Occurrence.lower]

theorem find?_lower (needle cs : List Char) :
    find? needle (cs.map Char.toLower) = (find? needle cs).map Occurrence.lower := by
  rw [find?, find?, leftmost?_lower]
  split <;> rfl

end Find

end FilterQuery.Text
