import FilterQuery.Value.Coerce
import FilterQuery.Proofs.Decimal.Shortest
import FilterQuery.Proofs.Text.Blank
import FilterQuery.Proofs.Text.Search

/-!
Values read back from the text they are shown as. Main statements: every value that is read from a text
can be read back (`ofToken_readable`), and it comes back as it was, but for whole floating point
numbers, which come back as integers (`ofToken_display`).
-/
namespace FilterQuery.Value

open Text Decimal

def signed (negative : Bool) (n : Nat) : Int := if negative then -(n : Int) else n

/-- The integer that a whole floating point number is shown as. -/
def shownInt (x : Binary64) : Int := signed x.negative x.printed

/-- The integer that comes back for a number that is the given integer: from `2 ^ 53` on the integer
that the number is shown as, if it can be written in 64 bits. -/
def rereadInt (x : Binary64) (i : Int) : Int :=
  if i.natAbs < 9007199254740992 then i else if fits (shownInt x) then shownInt x else i

def rereadScalar : Value → Value
  | float x =>
    match x.toInt? with
    | some i => if fits i then int (.ofInt (rereadInt x i)) else float x
    | none => float x
  | v => v

/-- The value that comes back where a value is shown and read again. -/
def reread : Value → Value
  | list items => list (items.map rereadScalar)
  | v => rereadScalar v

/-- A value that is no list, nor a number that is not finite. -/
def IsScalar : Value → Prop
  | list _ => False
  | float x => x.isFinite
  | null | bool _ | int _ | text _ => True

/-- The texts in a value that is no list. -/
def scalarTexts : Value → List String
  | text s => [s]
  | _ => []

/-- The texts in a value. -/
def texts : Value → List String
  | list items => items.flatMap scalarTexts
  | v => scalarTexts v

mutual

/-- The floating point numbers in a value, in lists of any depth. -/
def floats : Value → List Binary64
  | float x => [x]
  | list items => floatsOf items
  | null | bool _ | int _ | text _ => []

def floatsOf : List Value → List Binary64
  | [] => []
  | item :: items => floats item ++ floatsOf items

end

/-- A value that can be read back: lists are not nested, and their texts hold no commas. -/
def Readable : Value → Prop
  | list items => ∀ item ∈ items, item.IsScalar ∧ ∀ s ∈ item.scalarTexts, ',' ∉ s.toList
  | v => v.IsScalar

section Literals

variable {x : Binary64}

theorem fits_iff {i : Int} : fits i ↔ -9223372036854775808 ≤ i ∧ i ≤ 9223372036854775807 := by
  simp only [fits, Bool.and_eq_true, decide_eq_true_eq]
  rfl

theorem fits_toInt (i : Int64) : fits i.toInt := by
  rw [fits_iff]
  have low := i.le_toInt
  have high := i.toInt_lt
  omega

theorem ofLiteral?_fits {negative : Bool} {digits : List Char} (inRange : fits (signed negative (valueOf digits))) :
    ofLiteral? ⟨negative, digits, none, none⟩ = some (int (.ofInt (signed negative (valueOf digits)))) := by
  rw [signed] at inRange ⊢
  simp [ofLiteral?, Literal.significand, inRange]

theorem ofLiteral?_ofInt (i : Int64) : ofLiteral? (.ofInt i.toInt) = some (int i) := by
  have written : signed (decide (i.toInt < 0)) (valueOf (digitsOf i.toInt.natAbs)) = i.toInt := by
    rw [signed, valueOf_digitsOf]
    simp only [decide_eq_true_eq]
    split <;> omega
  rw [Literal.ofInt, ofLiteral?_fits (by rw [written]; exact fits_toInt i), written, Int64.ofInt_toInt]

theorem natAbs_signed (negative : Bool) (n : Nat) : (signed negative n).natAbs = n := by
  cases negative <;> simp [signed]

/-- A whole number comes back as an integer if it can be written in 64 bits. -/
theorem ofLiteral?_whole {m : Nat} (finite : x.isFinite) (magnitude : x.magnitude = m) :
    ofLiteral? ((x.shortest .upper).plain x.negative) = some (rereadScalar (float x)) := by
  have whole : 0 ≤ (x.shortest .upper).power := Binary64.power_shortest_nonneg finite magnitude
  have exact : x.toInt? = some (signed x.negative m) :=
    (Binary64.toInt?_eq_some_iff finite).mpr ⟨m, magnitude, rfl⟩
  have digits : valueOf (digitsOf (x.shortest .upper).significand ++
      List.replicate (x.shortest .upper).power.toNat '0') = x.printed := by
    rw [Scaled.valueOf_append_zeros, valueOf_digitsOf]
    rfl
  rw [Scaled.plain_of_nonneg whole, rereadScalar]
  simp only [exact, rereadInt, natAbs_signed]
  by_cases inRange : fits (shownInt x)
  · have bounds := fits_iff.mp inRange
    have size := natAbs_signed x.negative x.printed
    have few := Binary64.lt_of_printed_le finite magnitude (by rw [shownInt] at bounds; omega)
    have exactFits : fits (signed x.negative m) := by
      rw [fits_iff, signed]
      split <;> omega
    rw [ofLiteral?_fits (by rw [digits]; exact inRange), digits, if_pos exactFits, if_pos inRange]
    split
    · next small => rw [Binary64.printed_of_small finite magnitude small]
    · rfl
  · have back := Binary64.readsBack_printed finite magnitude
    rw [Binary64.readsBack, beq_iff_eq] at back
    have read : ofLiteral? ⟨x.negative, digitsOf (x.shortest .upper).significand ++
        List.replicate (x.shortest .upper).power.toNat '0', none, none⟩ =
          some (intOr x (signed x.negative m)) := by
      rw [shownInt, signed] at inRange
      simp [ofLiteral?, Literal.significand, Literal.power, digits, inRange, back, finite, exact]
    rw [read, intOr, if_neg inRange]
    split
    · split
      · rfl
      · rfl
    · rfl

/-- A number is read back from the plain digits it is shown as. -/
theorem ofLiteral?_plain (finite : x.isFinite) :
    ofLiteral? ((x.shortest .upper).plain x.negative) = some (rereadScalar (float x)) := by
  have back : x.readsBack (x.shortest .upper) := Binary64.readsBack_shortest finite
  rw [Binary64.readsBack, beq_iff_eq] at back
  by_cases whole : 0 ≤ (x.shortest .upper).power
  · obtain ⟨m, magnitude⟩ := (Binary64.power_shortest_nonneg_iff finite).mp whole
    exact ofLiteral?_whole finite magnitude
  · obtain ⟨point, significand, power⟩ := Scaled.plain_of_neg (Int.not_le.mp whole) x.negative
    have broken : x.toInt? = none := by
      cases here : x.toInt? with
      | none => rfl
      | some i =>
        obtain ⟨m, magnitude, _⟩ := (Binary64.toInt?_eq_some_iff finite).mp here
        exact absurd (Binary64.power_shortest_nonneg finite magnitude) whole
    obtain ⟨digits, fraction⟩ := Option.isSome_iff_exists.mp point
    have sign : ((x.shortest .upper).plain x.negative).negative = x.negative := rfl
    simp [ofLiteral?, rereadScalar, broken, sign, significand, power, back, finite, fraction]

end Literals

section Numerals

theorem plain_of_numeral {c : Char} (numeral : c.isDigit = true ∨ c = '-' ∨ c = '.') :
    c.toLower = c ∧ isBlank c = false := by
  rcases numeral with digit | rfl | rfl
  · obtain ⟨low, high⟩ : 48 ≤ c.toNat ∧ c.toNat ≤ 57 := Char.isDigit_iff_toNat.mp digit
    constructor
    · rcases toLower_cases c with same | ⟨letter, _, _⟩
      · exact same
      · omega
    · simp [isBlank]
      omega
  · decide
  · decide

variable {l : Literal}

/-- A number is read as it is spelled: it is no keyword and has no quotes. -/
theorem ofScalar_of_spells {token : List Char} (spells : l.Spells (trim token)) :
    ofScalar token = (ofLiteral? l).getD (text (String.ofList (trim token))) := by
  have read := Literal.read?_of_spells spells
  obtain ⟨c, first, start⟩ := spells.head?
  obtain ⟨later, shape⟩ := List.head?_eq_some_iff.mp first
  have lower : c.toLower = c := by
    rcases start with digit | rfl | rfl | rfl
    · exact (plain_of_numeral (.inl digit)).1
    · decide
    · decide
    · decide
  have letters : c ≠ 'n' ∧ c ≠ 't' ∧ c ≠ 'f' ∧ c ≠ '\'' ∧ c ≠ '"' := by
    refine ⟨?_, ?_, ?_, ?_, ?_⟩ <;> rintro rfl <;> revert start <;> decide
  rw [shape] at read
  rw [ofScalar, shape]
  simp [sameText, lower, letters, unquote?, isQuote, read]

/-- What a literal without an exponent is written as has no blanks at its ends. -/
theorem trim_render (written : l.Written) (noExponent : l.exponent = none) : trim l.render = l.render := by
  have plain : ∀ c ∈ l.render, isBlank c = false :=
    fun c member => (plain_of_numeral (Literal.mem_render written noExponent member)).2
  exact trim_eq_self (fun c first => plain c (List.mem_of_head? first))
    fun c last => plain c (List.mem_of_getLast? last)

theorem ofScalar_numeral (written : l.Written) (noExponent : l.exponent = none) :
    ofScalar l.render = (ofLiteral? l).getD (text (String.ofList l.render)) := by
  have trimmed := trim_render written noExponent
  have spells : l.Spells (trim l.render) := by
    rw [trimmed]
    exact Literal.spells_render written
  rw [ofScalar_of_spells spells, trimmed]

theorem ofToken_of_spells {token : List Char} (spells : l.Spells (trim token)) :
    ofToken token = (ofLiteral? l).getD (text (String.ofList (trim token))) := by
  obtain ⟨c, first, start⟩ := spells.head?
  obtain ⟨later, shape⟩ := List.head?_eq_some_iff.mp first
  have noList : unwrap? (trim token) = none := by
    rw [shape, unwrap?]
    rintro rest same
    rw [(List.cons.inj same).1] at start
    revert start
    decide
  rw [ofToken, noList]
  exact ofScalar_of_spells spells

end Numerals

section Scalars

variable {v : Value}

theorem display_text (s : String) : (text s).display.toList = '\'' :: (s.toList ++ ['\'']) := by
  simp [display]

/-- What is not a list comes back from its text. -/
theorem ofScalar_display (scalar : v.IsScalar) : ofScalar v.display.toList = v.rereadScalar := by
  cases v with
  | null => rfl
  | bool b => cases b <;> rfl
  | int i =>
    have read := ofScalar_numeral (Literal.written_ofInt i.toInt) rfl
    rw [Literal.render_ofInt, ofLiteral?_ofInt] at read
    simpa [display, rereadScalar] using read
  | float x =>
    have read := ofScalar_numeral (Scaled.written_plain (x.shortest .upper) x.negative) rfl
    rw [ofLiteral?_plain scalar] at read
    rw [display_float scalar, read]
    rfl
  | text s =>
    have trimmed : trim (text s).display.toList = (text s).display.toList := by
      rw [display_text]
      exact trim_eq_self (by simp; decide) (by simp [List.getLast?_cons]; decide)
    rw [ofScalar, trimmed, display_text]
    simp [sameText, unquote?, isQuote, rereadScalar]
  | list items => exact absurd scalar id

/-- What is not a list is shown as a keyword, as a number, or in quotes. -/
theorem display_cases (scalar : v.IsScalar) :
    v.display ∈ ["NULL", "true", "false"] ∨ Numeral v.display ∨ ∃ s, v = text s := by
  cases v with
  | null => exact .inl (by simp [display])
  | bool b => exact .inl (by cases b <;> simp [display])
  | int i => exact .inr (.inl (display_int_numeral i))
  | float x => exact .inr (.inl (display_float_numeral scalar))
  | text s => exact .inr (.inr ⟨s, rfl⟩)
  | list items => exact absurd scalar id

/-- There are no blanks at the ends of what is shown, and what is not a list starts like none. -/
theorem display_ends (scalar : v.IsScalar) :
    (∃ c ∈ v.display.toList.head?, isBlank c = false ∧ c ≠ '(') ∧
      ∃ c ∈ v.display.toList.getLast?, isBlank c = false := by
  rcases display_cases scalar with keyword | numeral | ⟨s, rfl⟩
  · have table : ∀ shown ∈ ["NULL", "true", "false"],
        (∃ c ∈ shown.toList.head?, isBlank c = false ∧ c ≠ '(') ∧
          ∃ c ∈ shown.toList.getLast?, isBlank c = false := by simp [isBlank]
    exact table _ keyword
  · have nonempty := numeral.ne_nil
    have first := numeral.mem (List.head_mem nonempty)
    have last := numeral.mem (List.getLast_mem nonempty)
    refine ⟨⟨_, List.head?_eq_some_head nonempty, (plain_of_numeral first).2, ?_⟩,
      _, List.getLast?_eq_some_getLast nonempty, (plain_of_numeral last).2⟩
    intro parenthesis
    rw [parenthesis] at first
    revert first
    decide
  · rw [display_text]
    exact ⟨⟨'\'', rfl, by decide⟩, '\'', by simp [List.getLast?_cons], by decide⟩

theorem ofToken_scalar (scalar : v.IsScalar) : ofToken v.display.toList = v.rereadScalar := by
  obtain ⟨⟨c, first, plain, notList⟩, d, last, plain'⟩ := display_ends scalar
  have trimmed : trim v.display.toList = v.display.toList := by
    apply trim_eq_self
    · rw [first]
      simpa using plain
    · rw [last]
      simpa using plain'
  obtain ⟨later, shape⟩ := List.head?_eq_some_iff.mp first
  have noList : unwrap? v.display.toList = none := by
    rw [shape, unwrap?]
    intro rest same
    exact notList (List.cons.inj same).1
  rw [ofToken, trimmed, noList]
  exact ofScalar_display scalar

theorem comma_not_mem_display (scalar : v.IsScalar) (free : ∀ s ∈ v.scalarTexts, ',' ∉ s.toList) :
    ',' ∉ v.display.toList := by
  rcases display_cases scalar with keyword | numeral | ⟨s, rfl⟩
  · have table : ∀ shown ∈ ["NULL", "true", "false"], ',' ∉ shown.toList := by decide
    exact table _ keyword
  · intro member
    have inside := numeral.mem member
    revert inside
    decide
  · rw [display_text]
    simpa [scalarTexts] using free

end Scalars

section Lists

variable {items : List Value}

theorem ofToken_trim (token : List Char) : ofToken (trim token) = ofToken token := by
  simp only [ofToken, ofScalar, trim_trim]

theorem ofScalar_blank (token : List Char) : ofScalar (' ' :: token) = ofScalar token := by
  rw [ofScalar, trim_blank_cons (by decide), ofScalar]

theorem pieces_display {v : Value} (free : ',' ∉ v.display.toList) :
    pieces (· == ',') v.display.toList = [v.display.toList] := by
  refine pieces_eq_singleton fun c member => ?_
  rw [beq_eq_false_iff_ne]
  rintro rfl
  exact free member

/-- Between the commas of a list that is shown stand its items. -/
theorem pieces_displayItems {first : Value} (free : ∀ item ∈ first :: items, ',' ∉ item.display.toList) :
    pieces (· == ',') (displayItems (first :: items)).toList =
      first.display.toList :: items.map (' ' :: ·.display.toList) := by
  have alone := pieces_display (free first List.mem_cons_self)
  induction items generalizing first with
  | nil => exact alone
  | cons second items ih =>
    have others := fun item member => free item (List.mem_cons_of_mem first member)
    have rest := ih others (pieces_display (others second List.mem_cons_self))
    have shape : (displayItems (first :: second :: items)).toList =
        first.display.toList ++ ',' :: ' ' :: (displayItems (second :: items)).toList := by
      simp [displayItems]
    have blank : pieces (· == ',') (' ' :: (displayItems (second :: items)).toList) =
        (' ' :: second.display.toList) :: items.map (' ' :: ·.display.toList) := by
      rw [pieces, if_neg (by decide), rest]
      rfl
    rw [shape, pieces_append_cons _ _ (by decide), alone, blank]
    rfl

theorem displayItems_cons (first : Value) (others : List Value) :
    ∃ rest, (displayItems (first :: others)).toList = first.display.toList ++ rest := by
  cases others with
  | nil => exact ⟨[], (List.append_nil _).symm⟩
  | cons second others =>
    refine ⟨", ".toList ++ (displayItems (second :: others)).toList, ?_⟩
    simp [displayItems]

theorem ofItems_displayItems (scalar : ∀ item ∈ items, item.IsScalar)
    (free : ∀ item ∈ items, ∀ s ∈ item.scalarTexts, ',' ∉ s.toList) :
    ofItems (displayItems items).toList = items.map rereadScalar := by
  cases items with
  | nil => rfl
  | cons first others =>
    have free' : ∀ item ∈ first :: others, ',' ∉ item.display.toList :=
      fun item member => comma_not_mem_display (scalar item member) (free item member)
    have nonempty : (trim (displayItems (first :: others)).toList).isEmpty = false := by
      obtain ⟨⟨c, atHead, plain, _⟩, _⟩ := display_ends (scalar first List.mem_cons_self)
      obtain ⟨later, shape⟩ := List.head?_eq_some_iff.mp atHead
      obtain ⟨rest, whole⟩ := displayItems_cons first others
      rw [whole, shape, List.cons_append, trim_cons plain]
      rfl
    have same : ∀ item ∈ first :: others, ofScalar item.display.toList = item.rereadScalar :=
      fun item member => ofScalar_display (scalar item member)
    rw [ofItems, nonempty, if_neg Bool.false_ne_true, pieces_displayItems free', List.map_cons,
      same first List.mem_cons_self, List.map_cons, List.map_map]
    congr 1
    refine List.map_congr_left fun item member => ?_
    rw [Function.comp_apply, ofScalar_blank, same item (List.mem_cons_of_mem _ member)]

theorem Readable.cases {v : Value} (readable : v.Readable) :
    v.IsScalar ∨ ∃ items, v = list items ∧
      ∀ item ∈ items, item.IsScalar ∧ ∀ s ∈ item.scalarTexts, ',' ∉ s.toList := by
  cases v with
  | list items => exact .inr ⟨items, rfl, readable⟩
  | null | bool _ | int _ | float _ | text _ => exact .inl readable

theorem IsScalar.reread_eq {v : Value} (scalar : v.IsScalar) : v.reread = v.rereadScalar := by
  cases v with
  | list items => exact absurd scalar id
  | null | bool _ | int _ | float _ | text _ => rfl

theorem IsScalar.texts_eq {v : Value} (scalar : v.IsScalar) : v.texts = v.scalarTexts := by
  cases v with
  | list items => exact absurd scalar id
  | null | bool _ | int _ | float _ | text _ => rfl

theorem display_list (items : List Value) :
    (list items).display.toList = '(' :: ((displayItems items).toList ++ [')']) := by
  simp [display]

theorem getLast?_display_list (items : List Value) : (list items).display.toList.getLast? = some ')' := by
  rw [display_list, ← List.cons_append, List.getLast?_append]
  rfl

theorem IsScalar.isFinite {v : Value} (scalar : v.IsScalar) {x : Binary64} (member : x ∈ v.floats) :
    x.isFinite := by
  cases v with
  | list items => exact absurd scalar id
  | float y =>
    obtain rfl := List.mem_singleton.mp member
    exact scalar
  | null | bool _ | int _ | text _ => cases member

theorem mem_floatsOf {x : Binary64} : x ∈ floatsOf items ↔ ∃ item ∈ items, x ∈ item.floats := by
  induction items with
  | nil => simp [floatsOf]
  | cons item items ih => simp [floatsOf, ih]

theorem Readable.isFinite {v : Value} (readable : v.Readable) {x : Binary64} (member : x ∈ v.floats) :
    x.isFinite := by
  rcases readable.cases with scalar | ⟨items, rfl, each⟩
  · exact scalar.isFinite member
  · obtain ⟨item, inside, isIn⟩ := mem_floatsOf.mp member
    exact (each item inside).1.isFinite isIn

/-- A value that can be read back comes back from its text, whole numbers as integers. -/
theorem ofToken_display {v : Value} (readable : v.Readable) : ofToken v.display.toList = v.reread := by
  rcases readable.cases with scalar | ⟨items, rfl, each⟩
  · rw [ofToken_scalar scalar, scalar.reread_eq]
  · have trimmed : trim (list items).display.toList = (list items).display.toList := by
      apply trim_eq_self
      · rw [display_list]
        simp
        decide
      · rw [getLast?_display_list]
        simp
        decide
    have inside : unwrap? (list items).display.toList = some (displayItems items).toList := by
      rw [display_list]
      simp [unwrap?]
    rw [ofToken, trimmed, inside]
    show list (ofItems _) = list _
    rw [ofItems_displayItems (fun item member => (each item member).1)
      fun item member => (each item member).2]

theorem display_last {v : Value} (readable : v.Readable) :
    ∃ c ∈ v.display.toList.getLast?, isBlank c = false := by
  rcases readable.cases with scalar | ⟨items, rfl, _⟩
  · exact (display_ends scalar).2
  · exact ⟨')', getLast?_display_list items, by decide⟩

end Lists

section Read

/-- A literal is read as an integer, as a finite number, or not at all. -/
theorem ofLiteral?_cases {l : Literal} {v : Value} (read : ofLiteral? l = some v) :
    (∃ n, v = int n) ∨ ∃ x : Binary64, x.isFinite ∧ v = float x := by
  rw [ofLiteral?] at read
  generalize (if l.negative then -(l.significand : Int) else l.significand) = written at read
  generalize Binary64.ofDecimal l.negative l.significand l.power = x at read
  split at read
  · cases read
    exact .inl ⟨_, rfl⟩
  · split at read
    · cases read
    · next finite =>
      have finite : x.isFinite := by simpa using finite
      split at read
      · cases read
        rw [intOr]
        split
        · exact .inl ⟨_, rfl⟩
        · exact .inr ⟨x, finite, rfl⟩
      · cases read
        exact .inr ⟨x, finite, rfl⟩

theorem isScalar_of_ofLiteral? {l : Literal} {v : Value} (read : ofLiteral? l = some v) :
    v.IsScalar ∧ v.scalarTexts = [] := by
  rcases ofLiteral?_cases read with ⟨n, rfl⟩ | ⟨x, finite, rfl⟩
  · exact ⟨trivial, rfl⟩
  · exact ⟨finite, rfl⟩

theorem unquote?_isInfix {token inner : List Char} (quoted : unquote? token = some inner) :
    inner <:+: token := by
  cases token with
  | nil => cases quoted
  | cons q rest =>
    rw [unquote?] at quoted
    split at quoted
    · cases quoted
      exact (List.dropLast_prefix rest).isInfix.trans (List.suffix_cons q rest).isInfix
    · cases quoted

theorem unwrap?_isInfix {token body : List Char} (wrapped : unwrap? token = some body) :
    body <:+: token := by
  unfold unwrap? at wrapped
  split at wrapped
  · next rest =>
    split at wrapped
    · cases wrapped
      exact (List.dropLast_prefix rest).isInfix.trans (List.suffix_cons _ rest).isInfix
    · cases wrapped
  · cases wrapped

/-- What is not read as a list is no list, and a text that is read stands in what it is read from. -/
theorem ofScalar_readable (token : List Char) :
    (ofScalar token).IsScalar ∧ ∀ s ∈ (ofScalar token).scalarTexts, s.toList <:+: token := by
  have own := trim_isInfix token
  rw [ofScalar]
  generalize trim token = trimmed at own
  split_ifs
  · exact ⟨trivial, by simp [scalarTexts]⟩
  · exact ⟨trivial, by simp [scalarTexts]⟩
  · exact ⟨trivial, by simp [scalarTexts]⟩
  · cases quoted : unquote? trimmed with
    | some inner =>
      have inside := (unquote?_isInfix quoted).trans own
      exact ⟨trivial, by simpa [scalarTexts] using inside⟩
    | none =>
      cases read : (Literal.read? trimmed).bind ofLiteral? with
      | some v =>
        obtain ⟨l, _, number⟩ := Option.bind_eq_some_iff.mp read
        obtain ⟨scalar, none⟩ := isScalar_of_ofLiteral? number
        rw [Option.getD_some]
        exact ⟨scalar, by simp [none]⟩
      | none => exact ⟨trivial, by simpa [scalarTexts] using own⟩

theorem ofItems_readable (body : List Char) :
    ∀ item ∈ ofItems body, (item.IsScalar ∧ ∀ s ∈ item.scalarTexts, ',' ∉ s.toList) ∧
      ∀ s ∈ item.scalarTexts, s.toList <:+: body := by
  intro item member
  rw [ofItems] at member
  split at member
  · cases member
  · obtain ⟨piece, inside, rfl⟩ := List.mem_map.mp member
    obtain ⟨scalar, stands⟩ := ofScalar_readable piece
    refine ⟨⟨scalar, fun s isText comma => ?_⟩, fun s isText => ?_⟩
    · have separated := separates_eq_false_of_mem_pieces inside ((stands s isText).mem comma)
      cases separated
    · exact (stands s isText).trans (infix_of_mem_pieces inside)

/-- Every value that is read can be read back, and its texts stand in what it is read from. -/
theorem ofToken_readable (token : List Char) :
    (ofToken token).Readable ∧ ∀ s ∈ (ofToken token).texts, s.toList <:+: token := by
  rw [ofToken]
  cases wrapped : unwrap? (trim token) with
  | some body =>
    have own := (unwrap?_isInfix wrapped).trans (trim_isInfix token)
    refine ⟨fun item member => (ofItems_readable body item member).1, fun s isText => ?_⟩
    obtain ⟨item, member, inside⟩ := List.mem_flatMap.mp isText
    exact ((ofItems_readable body item member).2 s inside).trans own
  | none =>
    obtain ⟨scalar, stands⟩ := ofScalar_readable token
    show (ofScalar token).Readable ∧ ∀ s ∈ (ofScalar token).texts, s.toList <:+: token
    cases shape : ofScalar token with
    | list items =>
      rw [shape] at scalar
      exact absurd scalar id
    | null | bool _ | int _ | float _ | text _ =>
      rw [shape] at scalar stands
      exact ⟨scalar, stands⟩

end Read

end FilterQuery.Value
