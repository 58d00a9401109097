import FilterQuery.Value
import Mathlib.Data.List.TakeWhile

/-!
Decimal literals as they are written. Main statements: a text is read as a literal exactly if it is a spelling
of it (`Literal.read?_eq_some_iff`), which the text that it is written as is (`Literal.spells_render`), and the
numbers in which values are shown are literals without an exponent (`display_int_numeral`,
`display_float_numeral`).
-/
namespace FilterQuery.Decimal

def AllDigits (cs : List Char) : Prop := ∀ c ∈ cs, c.isDigit = true

theorem AllDigits.append {first second : List Char} (one : AllDigits first) (other : AllDigits second) :
    AllDigits (first ++ second) := by
  intro c member
  rcases List.mem_append.mp member with here | there
  · exact one c here
  · exact other c there

theorem allDigits_zeros (count : Nat) : AllDigits (List.replicate count '0') := by
  intro c member
  rw [List.eq_of_mem_replicate member]
  decide

theorem allDigits_digitsOf (n : Nat) : AllDigits (digitsOf n) := fun _ member =>
  Nat.isDigit_of_mem_toDigits (by decide) (by decide) member

theorem digitsOf_ne_nil (n : Nat) : digitsOf n ≠ [] := Nat.toDigits_ne_nil

theorem takeWhile_digits {digits rest : List Char} (all : AllDigits digits)
    (stop : ∀ c ∈ rest.head?, c.isDigit = false) :
    (digits ++ rest).takeWhile Char.isDigit = digits := by
  rw [List.takeWhile_append_of_pos all]
  cases rest with
  | nil => simp
  | cons c rest => simp [stop c rfl]

theorem dropWhile_digits {digits rest : List Char} (all : AllDigits digits)
    (stop : ∀ c ∈ rest.head?, c.isDigit = false) :
    (digits ++ rest).dropWhile Char.isDigit = rest := by
  rw [List.dropWhile_append_of_pos all]
  cases rest with
  | nil => rfl
  | cons c rest => simp [stop c rfl]

namespace Literal

/-- There are digits only in the places of digits, and there is at least one. -/
structure Written (l : Literal) : Prop where
  whole : AllDigits l.whole
  fraction : AllDigits (l.fraction.getD [])
  nonempty : l.whole ≠ [] ∨ l.fraction.getD [] ≠ []

def exponentPart (exponent : Option Int) : List Char :=
  match exponent with
  | none => []
  | some e => exponentText e

def magnitudeText (l : Literal) : List Char :=
  match l.fraction with
  | none => l.whole ++ exponentPart l.exponent
  | some digits => l.whole ++ '.' :: digits ++ exponentPart l.exponent

theorem render_eq (l : Literal) :
    l.render = (if l.negative then ['-'] else []) ++ l.magnitudeText := by
  unfold render magnitudeText exponentPart
  cases l.fraction <;> cases l.exponent <;> simp

theorem ne_sign_of_isDigit {c : Char} (digit : c.isDigit = true) : c ≠ '-' ∧ c ≠ '+' := by
  constructor <;> rintro rfl <;> revert digit <;> decide

section Spelling

/-- A sign is a minus, a plus, or left out. -/
inductive SpellsSign : Bool → List Char → Prop
  | minus : SpellsSign true ['-']
  | plus : SpellsSign false ['+']
  | none : SpellsSign false []

/-- An exponent is left out, or it is a letter, a sign and at least one digit. -/
inductive SpellsExponent : Option Int → List Char → Prop
  | none : SpellsExponent none []
  | some {e : Char} {negative : Bool} {sign digits : List Char} : e = 'e' ∨ e = 'E' →
      SpellsSign negative sign → AllDigits digits → digits ≠ [] →
      SpellsExponent (some (if negative then -(valueOf digits : Int) else valueOf digits))
        (e :: (sign ++ digits))

/-- The digits before the point, and the point with the digits behind it if there is a point. -/
def body (l : Literal) : List Char :=
  l.whole ++ match l.fraction with
    | none => []
    | some digits => '.' :: digits

/-- The text is a spelling of the literal: a sign, the digits, and an exponent. -/
structure Spells (l : Literal) (cs : List Char) : Prop where
  written : l.Written
  parts : ∃ sign exponent, cs = sign ++ (l.body ++ exponent) ∧ SpellsSign l.negative sign ∧
    SpellsExponent l.exponent exponent

variable {l : Literal} {cs digits rest : List Char} {negative : Bool} {exponent : Option Int}

theorem takeSign_append {sign : List Char} (spells : SpellsSign negative sign)
    (unsigned : ∀ c ∈ rest.head?, c ≠ '-' ∧ c ≠ '+') : takeSign (sign ++ rest) = (negative, rest) := by
  cases spells with
  | minus => rfl
  | plus => rfl
  | none =>
    show takeSign rest = (false, rest)
    cases rest with
    | nil => rfl
    | cons c rest =>
      obtain ⟨notMinus, notPlus⟩ := unsigned c rfl
      unfold takeSign
      split <;> simp_all

theorem spellsSign_takeSign (cs : List Char) :
    ∃ sign, cs = sign ++ (takeSign cs).2 ∧ SpellsSign (takeSign cs).1 sign := by
  unfold takeSign
  split
  · exact ⟨_, rfl, .minus⟩
  · exact ⟨_, rfl, .plus⟩
  · exact ⟨_, rfl, .none⟩

theorem readExponent?_eq_some_iff : readExponent? cs = some exponent ↔ SpellsExponent exponent cs := by
  constructor
  · intro read
    cases cs with
    | nil =>
      cases read
      exact .none
    | cons c rest =>
      obtain ⟨sign, shape, spells⟩ := spellsSign_takeSign rest
      rw [readExponent?] at read
      simp only at read
      split at read
      · next letter =>
        split at read
        · next enough =>
          rw [Bool.and_eq_true, Bool.not_eq_true', List.isEmpty_eq_false_iff, List.all_eq_true] at enough
          have spelt := SpellsExponent.some (by simpa using letter) spells enough.2 enough.1
          rw [← shape] at spelt
          exact Option.some.inj read ▸ spelt
        · cases read
      · cases read
  · intro spells
    cases spells with
    | none => rfl
    | @some e negative sign digits letter sign' all nonempty =>
      have isLetter : (e == 'e' || e == 'E') = true := by simpa using letter
      have some : (!digits.isEmpty && digits.all Char.isDigit) = true := by
        simp only [Bool.and_eq_true, List.all_eq_true]
        exact ⟨by simpa using nonempty, all⟩
      have taken := takeSign_append sign' fun c atHead => ne_sign_of_isDigit (all c (List.mem_of_head? atHead))
      rw [readExponent?, if_pos isLetter]
      simp only [taken, some, if_true]

theorem SpellsExponent.head? (spells : SpellsExponent exponent cs) :
    ∀ c ∈ cs.head?, c.isDigit = false ∧ c ≠ '.' := by
  intro c atHead
  cases spells with
  | none => cases atHead
  | some letter =>
    cases atHead
    rcases letter with rfl | rfl <;> decide

/-- What is behind the sign starts with a digit or a point. -/
theorem head?_body (written : l.Written) : ∃ c ∈ l.body.head?, c.isDigit = true ∨ c = '.' := by
  cases shape : l.whole with
  | cons c later => exact ⟨c, by simp [body, shape], .inl (written.whole c (by simp [shape]))⟩
  | nil =>
    cases fraction : l.fraction with
    | none => simpa [shape, fraction] using written.nonempty
    | some digits => exact ⟨'.', by simp [body, shape, fraction], .inr rfl⟩

/-- A spelling starts with a digit, a point or a sign. -/
theorem Spells.head? (spells : l.Spells cs) :
    ∃ c ∈ cs.head?, c.isDigit = true ∨ c = '.' ∨ c = '-' ∨ c = '+' := by
  obtain ⟨written, sign, text, rfl, signed, _⟩ := spells
  generalize l.negative = negative at signed
  cases signed with
  | minus => exact ⟨'-', rfl, by decide⟩
  | plus => exact ⟨'+', rfl, by decide⟩
  | none =>
    obtain ⟨c, first, start⟩ := head?_body written
    refine ⟨c, by simp [Option.mem_def.mp first], ?_⟩
    rcases start with digit | point
    · exact .inl digit
    · exact .inr (.inl point)

theorem point_not_mem_digits (all : AllDigits digits) : '.' ∉ digits := by
  intro member
  exact absurd (all '.' member) (by decide)

theorem SpellsSign.point_not_mem {sign : List Char} (spells : SpellsSign negative sign) : '.' ∉ sign := by
  cases spells <;> decide

theorem SpellsExponent.point_not_mem (spells : SpellsExponent exponent cs) : '.' ∉ cs := by
  cases spells with
  | none => exact List.not_mem_nil
  | some letter signed all _ =>
    have notLetter : ∀ c, c = 'e' ∨ c = 'E' → c ≠ '.' := by
      rintro c (rfl | rfl) <;> decide
    simp [(notLetter _ letter).symm, signed.point_not_mem, point_not_mem_digits all]

/-- There is a point in the spelling of a literal exactly if the literal has one. -/
theorem Spells.point_mem_iff (spells : l.Spells cs) : '.' ∈ cs ↔ l.fraction.isSome := by
  obtain ⟨written, sign, exponent, rfl, signed, spelt⟩ := spells
  have inWhole := point_not_mem_digits written.whole
  cases fraction : l.fraction with
  | none => simp [body, fraction, signed.point_not_mem, spelt.point_not_mem, inWhole]
  | some digits => simp [body, fraction]

theorem takeSign_of_spells {sign text : List Char} (written : l.Written) (spells : SpellsSign l.negative sign) :
    takeSign (sign ++ (l.body ++ text)) = (l.negative, l.body ++ text) := by
  obtain ⟨c, first, start⟩ := head?_body written
  refine takeSign_append spells fun d atHead => ?_
  rw [List.head?_append, first, Option.some_or] at atHead
  cases atHead
  rcases start with digit | rfl
  · exact ne_sign_of_isDigit digit
  · decide

theorem read?_of_spells (spells : l.Spells cs) : read? cs = some l := by
  obtain ⟨written, sign, text, rfl, signed, spelt⟩ := spells
  have stop : ∀ c ∈ text.head?, c.isDigit = false := fun c atHead => (spelt.head? c atHead).1
  have read := readExponent?_eq_some_iff.mpr spelt
  unfold read?
  simp only [takeSign_of_spells written signed]
  obtain ⟨negative, whole, fraction, exponent⟩ := l
  cases fraction with
  | none =>
    have nonempty : whole ≠ [] := by simpa using written.nonempty
    have noPoint : ∀ rest, text ≠ '.' :: rest := by
      rintro rest rfl
      exact (spelt.head? '.' rfl).2 rfl
    simp only [body, List.append_nil, takeWhile_digits written.whole stop,
      dropWhile_digits written.whole stop]
    rw [if_neg (by simpa using nonempty), read]
    rfl
  | some digits =>
    have fractionDigits : AllDigits digits := written.fraction
    have nonempty : ¬(whole = [] ∧ digits = []) := by
      rintro ⟨noWhole, noFraction⟩
      exact written.nonempty.elim (· noWhole) (· noFraction)
    have point : ∀ c ∈ ('.' :: (digits ++ text)).head?, c.isDigit = false := by simp
    simp only [body, List.append_assoc, List.cons_append, takeWhile_digits written.whole point,
      dropWhile_digits written.whole point, takeWhile_digits fractionDigits stop,
      dropWhile_digits fractionDigits stop, read]
    simpa using nonempty

theorem allDigits_takeWhile (cs : List Char) : AllDigits (cs.takeWhile Char.isDigit) :=
  fun _ member => List.mem_takeWhile_imp member

theorem spells_of_read? (read : read? cs = some l) : l.Spells cs := by
  obtain ⟨sign, shape, signed⟩ := spellsSign_takeSign cs
  have parts := List.takeWhile_append_dropWhile (p := Char.isDigit) (l := (takeSign cs).2)
  unfold read? at read
  simp only at read
  split at read
  · next rest behind =>
    split at read
    · cases read
    · next some =>
      obtain ⟨exponent, readExponent, rfl⟩ := Option.map_eq_some_iff.mp read
      refine ⟨⟨allDigits_takeWhile _, allDigits_takeWhile _, ?_⟩, sign, rest.dropWhile Char.isDigit, ?_,
        signed, readExponent?_eq_some_iff.mp readExponent⟩
      · simp only [Bool.and_eq_true, List.isEmpty_iff] at some
        by_contra none
        rw [not_or, not_not, not_not] at none
        exact some none
      · rw [body, List.append_assoc, List.cons_append, List.takeWhile_append_dropWhile, ← behind, parts]
        exact shape
  · next rest behind =>
    split at read
    · cases read
    · next some =>
      obtain ⟨exponent, readExponent, rfl⟩ := Option.map_eq_some_iff.mp read
      refine ⟨⟨allDigits_takeWhile _, by simp [AllDigits], .inl (by simpa using some)⟩, sign, _, ?_, signed,
        readExponent?_eq_some_iff.mp readExponent⟩
      rw [body, List.append_nil, parts]
      exact shape

/-- A text is read as a literal exactly if it is a spelling of it. -/
theorem read?_eq_some_iff : read? cs = some l ↔ l.Spells cs := ⟨spells_of_read?, read?_of_spells⟩

theorem spellsExponent_exponentPart (exponent : Option Int) :
    SpellsExponent exponent (exponentPart exponent) := by
  cases exponent with
  | none => exact .none
  | some e =>
    have digits := allDigits_digitsOf e.natAbs
    have nonempty := digitsOf_ne_nil e.natAbs
    rw [exponentPart, exponentText]
    by_cases negative : e < 0
    · have spelt := SpellsExponent.some (.inl rfl) .minus digits nonempty
      have size : -(e.natAbs : Int) = e := by omega
      rw [if_pos rfl, valueOf_digitsOf, size] at spelt
      rw [if_pos negative]
      exact spelt
    · have spelt := SpellsExponent.some (.inl rfl) .plus digits nonempty
      have size : (e.natAbs : Int) = e := by omega
      rw [if_neg Bool.false_ne_true, valueOf_digitsOf, size] at spelt
      rw [if_neg negative]
      exact spelt

/-- What a literal is written as is one of its spellings. -/
theorem spells_render (written : l.Written) : l.Spells l.render := by
  have magnitude : l.magnitudeText = l.body ++ exponentPart l.exponent := by
    unfold magnitudeText body
    cases l.fraction <;> simp
  refine ⟨written, if l.negative then ['-'] else [], exponentPart l.exponent, ?_, ?_,
    spellsExponent_exponentPart l.exponent⟩
  · rw [render_eq, magnitude]
  · cases l.negative with
    | true => exact .minus
    | false => exact .none

/-- A literal is read back from its text. -/
theorem read?_render (written : l.Written) : read? l.render = some l := read?_of_spells (spells_render written)

end Spelling

/-- Without an exponent there is nothing but digits, and what stands in front of and among them. -/
theorem mem_render {l : Literal} (written : l.Written) (plain : l.exponent = none) {c : Char}
    (member : c ∈ l.render) : c.isDigit = true ∨ c = '-' ∨ c = '.' := by
  simp only [render, plain, List.append_nil, List.mem_append] at member
  rcases member with (sign | whole) | fraction
  · split at sign
    · exact .inr (.inl (List.mem_singleton.mp sign))
    · cases sign
  · exact .inl (written.whole c whole)
  · have digits := written.fraction
    cases shape : l.fraction with
    | none => simp [shape] at fraction
    | some cs =>
      simp only [shape, List.mem_cons, Option.getD_some] at fraction digits
      rcases fraction with point | digit
      · exact .inr (.inr point)
      · exact .inl (digits c digit)

theorem render_ne_nil {l : Literal} (written : l.Written) : l.render ≠ [] := by
  intro empty
  have read := read?_render written
  rw [empty] at read
  cases read

theorem written_ofInt (i : Int) : (ofInt i).Written where
  whole := allDigits_digitsOf _
  fraction := by simp [ofInt, AllDigits]
  nonempty := .inl (digitsOf_ne_nil _)

theorem render_ofInt (i : Int) : (ofInt i).render = textOf i := by
  by_cases negative : i < 0 <;> simp [ofInt, render, textOf, negative]

end Literal

theorem Scaled.allDigits_places (d : Scaled) :
    AllDigits d.places.1 ∧ AllDigits d.places.2 ∧ d.places.1 ≠ [] := by
  have digits := allDigits_digitsOf d.significand
  have nonempty := List.length_pos_iff.mpr (digitsOf_ne_nil d.significand)
  unfold places
  simp only
  split
  · exact ⟨digits.append (allDigits_zeros _), by simp [AllDigits], by simp [digitsOf_ne_nil]⟩
  · split
    · next behind short =>
      refine ⟨fun c member => digits c (List.mem_of_mem_take member),
        fun c member => digits c (List.mem_of_mem_drop member), ?_⟩
      apply List.ne_nil_of_length_pos
      rw [List.length_take]
      omega
    · exact ⟨by simp [AllDigits], (allDigits_zeros _).append digits, by simp⟩

theorem Scaled.written_plain (d : Scaled) (negative : Bool) : (d.plain negative).Written where
  whole := d.allDigits_places.1
  fraction := by
    have digits := d.allDigits_places.2.1
    unfold plain
    simp only
    split
    · simp [AllDigits]
    · exact digits
  nonempty := .inl d.allDigits_places.2.2

/-- The text is a decimal literal without an exponent. -/
def Numeral (text : String) : Prop :=
  ∃ l : Literal, l.Written ∧ l.exponent = none ∧ text.toList = l.render

theorem Numeral.ne_nil {text : String} (numeral : Numeral text) : text.toList ≠ [] := by
  obtain ⟨l, written, noExponent, shape⟩ := numeral
  rw [shape]
  exact Literal.render_ne_nil written

theorem Numeral.mem {text : String} (numeral : Numeral text) {c : Char} (member : c ∈ text.toList) :
    c.isDigit = true ∨ c = '-' ∨ c = '.' := by
  obtain ⟨l, written, noExponent, shape⟩ := numeral
  rw [shape] at member
  exact Literal.mem_render written noExponent member

theorem display_int_numeral (i : Int64) : Numeral (Value.int i).display :=
  ⟨.ofInt i.toInt, Literal.written_ofInt _, rfl, by simp [Value.display, Literal.render_ofInt]⟩

theorem display_float {x : Binary64} (finite : x.isFinite) :
    (Value.float x).display.toList = ((x.shortest .upper).plain x.negative).render := by
  have number : x.isNaN = false := by
    simp only [Binary64.isFinite, Binary64.isNaN, decide_eq_true_eq, decide_eq_false_iff_not] at finite ⊢
    omega
  simp [Value.display, Binary64.display, number, finite]

theorem display_float_numeral {x : Binary64} (finite : x.isFinite) :
    Numeral (Value.float x).display :=
  ⟨_, Scaled.written_plain _ _, rfl, display_float finite⟩

end FilterQuery.Decimal
