/-!
Search for a text inside another with the case of ASCII letters ignored. A place in a text is given
by the text around it, and by the number of bytes before it in UTF-8.
-/
namespace FilterQuery.Text

/-- Characters that are equal up to the case of ASCII letters. -/
def sameLetter (a b : Char) : Bool := a.toLower == b.toLower

/-- Texts that are equal up to the case of ASCII letters. -/
def sameText (a b : List Char) : Bool := a.map Char.toLower == b.map Char.toLower

/-- What follows the needle in a text that starts with it, up to the case of ASCII letters. -/
def after? : List Char → List Char → Option (List Char)
  | [], cs => some cs
  | _ :: _, [] => none
  | n :: needle, c :: cs => if sameLetter n c then after? needle cs else none

/-- A text cut in three at a place where something was found. -/
structure Occurrence where
  before : List Char
  found : List Char
  after : List Char
deriving DecidableEq

def Occurrence.push (c : Char) (o : Occurrence) : Occurrence := { o with before := c :: o.before }

/-- The leftmost place of a needle in a text, up to the case of ASCII letters. The empty needle is
found at the start of every text but the empty one. -/
def leftmost? (needle : List Char) : List Char → Option Occurrence
  | [] => none
  | c :: cs =>
    match after? needle (c :: cs) with
    | some rest => some ⟨[], (c :: cs).take needle.length, rest⟩
    | none => (leftmost? needle cs).map (·.push c)

/-- The leftmost place of a needle in a text, up to the case of ASCII letters. The empty needle is
nowhere. -/
def find? (needle cs : List Char) : Option Occurrence :=
  if needle.isEmpty then none else leftmost? needle cs

/-- The number of bytes of a text in UTF-8. -/
def byteLength : List Char → Nat
  | [] => 0
  | c :: cs => c.utf8Size + byteLength cs

/-- A part of a text: the number of bytes before its start and before its end. -/
structure Span where
  start : Nat
  stop : Nat
deriving DecidableEq

/-- Where in the text the occurrence lies. -/
def Occurrence.span (o : Occurrence) : Span :=
  ⟨byteLength o.before, byteLength o.before + byteLength o.found⟩

@[simp] theorem byteLength_append (as bs : List Char) :
    byteLength (as ++ bs) = byteLength as + byteLength bs := by
  induction as with
  | nil => simp [byteLength]
  | cons a as ih => simp [byteLength, ih, Nat.add_assoc]

/-- The three parts of an occurrence are the text. -/
theorem Occurrence.append_eq {needle cs : List Char} {o : Occurrence}
    (found : leftmost? needle cs = some o) : o.before ++ o.found ++ o.after = cs := by
  have rest_eq : ∀ (needle cs rest : List Char), after? needle cs = some rest →
      cs.take needle.length ++ rest = cs := by
    intro needle
    induction needle with
    | nil => intro cs rest h; simp_all [after?]
    | cons n needle ih =>
      intro cs rest h
      cases cs with
      | nil => simp [after?] at h
      | cons c cs =>
        simp only [after?] at h
        split at h
        · simpa using ih cs rest h
        · cases h
  induction cs generalizing o with
  | nil => simp [leftmost?] at found
  | cons c cs ih =>
    simp only [leftmost?] at found
    split at found
    · next rest here =>
      cases found
      simpa using rest_eq needle (c :: cs) rest here
    · obtain ⟨inner, later, rfl⟩ := Option.map_eq_some_iff.mp found
      simpa [Occurrence.push] using ih later

end FilterQuery.Text
