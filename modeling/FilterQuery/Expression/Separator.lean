import FilterQuery.Operator

/-!
Connectives in expressions: whether there is one, and the pieces of text between them. A connective
is looked for without regard to quotes.
-/
namespace FilterQuery.Expression

open Text

/-- What follows a separator that a text starts with: blanks, the keyword in any case, and blanks,
as many of both as there are. -/
def afterSeparator? (keyword cs : List Char) : Option (List Char) :=
  if cs.head?.all (!isBlank ·) then none
  else
    match after? keyword (cs.dropWhile isBlank) with
    | some (c :: rest) => if isBlank c then some (rest.dropWhile isBlank) else none
    | _ => none

theorem length_dropWhile_le {α : Type} (p : α → Bool) (as : List α) :
    (as.dropWhile p).length ≤ as.length :=
  (List.dropWhile_sublist p).length_le

theorem length_after?_le {needle cs rest : List Char} (follows : after? needle cs = some rest) :
    rest.length ≤ cs.length := by
  induction needle generalizing cs with
  | nil => cases follows; exact Nat.le_refl _
  | cons n needle ih =>
    cases cs with
    | nil => simp [after?] at follows
    | cons c cs =>
      simp only [after?] at follows
      split at follows
      · exact Nat.le_succ_of_le (ih follows)
      · cases follows

theorem length_afterSeparator?_lt {keyword cs rest : List Char}
    (follows : afterSeparator? keyword cs = some rest) : rest.length < cs.length := by
  unfold afterSeparator? at follows
  split at follows
  · cases follows
  · split at follows
    · next c tail here =>
      split at follows
      · cases follows
        have inner := length_after?_le here
        have outer := length_dropWhile_le isBlank cs
        have blanks := length_dropWhile_le isBlank tail
        simp only [List.length_cons] at inner
        omega
      · cases follows
    · cases follows

/-- The pieces of a text between the separators of a keyword. From left to right, a separator
starts where the text after the last one first allows it. -/
def piecesBetween (keyword : List Char) : List Char → List (List Char)
  | [] => [[]]
  | c :: cs =>
    match found : afterSeparator? keyword (c :: cs) with
    | some rest =>
      have := length_afterSeparator?_lt found
      [] :: piecesBetween keyword rest
    | none => (piecesBetween keyword cs).modifyHead (c :: ·)
termination_by cs => cs.length
decreasing_by
  · exact this
  · simp

/-- The pieces of a text between the separators of a connective, without the blanks around
them. -/
def split (connective : Connective) (cs : List Char) : List (List Char) :=
  (piecesBetween connective.keyword.toList cs).map trim

/-- The connective of a text: the first that occurs in it with a blank on either side. -/
def connective? (cs : List Char) : Option Connective :=
  Connective.all.find? fun c => (find? (' ' :: c.keyword.toList ++ [' ']) cs).isSome

end FilterQuery.Expression
