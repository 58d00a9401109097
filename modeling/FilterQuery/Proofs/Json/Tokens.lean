import FilterQuery.Json.Decode
import FilterQuery.Proofs.Decimal.Scientific
import FilterQuery.Proofs.Outcome

/-!
The tokens of JSON values that are written out. Main statements: a value has the same tokens in both
layouts (`tokens_compact`, `tokens_pretty`), and a text in quotes is read as it was (`text_quotedOf`).
-/
namespace FilterQuery.Json

open Decimal Text

variable {rest : List Char}

theorem tokens_cons {c : Char} {cs : List Char} (printed : isSpace c = false) :
    tokens (c :: cs) = (scanToken c cs).1 :: tokens (scanToken c cs).2 := by
  rw [tokens, if_neg (by simp [printed])]

@[simp] theorem tokens_nil : tokens [] = [] := by rw [tokens]

theorem tokens_space {c : Char} {cs : List Char} (blank : isSpace c) : tokens (c :: cs) = tokens cs := by
  rw [tokens, if_pos blank]

section Strings

/-- The piece that a character is read as where it is written in a string. -/
def pieceOf (c : Char) : Piece :=
  if c.toNat < 0x20 ∧ c ∉ ['\x08', '\t', '\n', '\x0c', '\r'] then .code c.toNat else .char c

/-- The string that is read where a text is written in quotes. -/
def quotedOf (s : String) : Quoted := ⟨s.toList.map pieceOf, .closed⟩

theorem hexCode?_control {n : Nat} (control : n < 0x20) :
    hexCode? '0' '0' (hexDigit (n / 16)) (hexDigit n) = some n := by
  have table : ∀ n < 0x20, hexCode? '0' '0' (hexDigit (n / 16)) (hexDigit n) = some n := by decide
  exact table n control

theorem scanString_printed {c : Char} (notQuote : c ≠ '"') (notEscape : c ≠ '\\')
    (printed : ¬c.toNat < 0x20) :
    scanString (c :: rest) = ((scanString rest).1.push (.char c), (scanString rest).2) := by
  rw [scanString]
  all_goals simp_all

/-- A character is read from what is written for it in a string. -/
theorem scanString_escapedChar (c : Char) :
    scanString (escapedChar c ++ rest) = ((scanString rest).1.push (pieceOf c), (scanString rest).2) := by
  -- Seven characters have a letter of their own behind the backslash; the other controls have a code.
  by_cases escaped : c ∈ ['"', '\\', '\x08', '\t', '\n', '\x0c', '\r']
  · simp only [List.mem_cons, List.not_mem_nil, or_false] at escaped
    rcases escaped with rfl | rfl | rfl | rfl | rfl | rfl | rfl <;> rfl
  · simp only [List.mem_cons, List.not_mem_nil, or_false, not_or] at escaped
    by_cases control : c.toNat < 0x20
    · have digits := hexCode?_control control
      have escape : escapedChar c =
          ['\\', 'u', '0', '0', hexDigit (c.toNat / 16), hexDigit c.toNat] := by
        simp [escapedChar, escaped, control]
      have piece : pieceOf c = .code c.toNat := by simp [pieceOf, escaped, control]
      rw [escape, piece]
      simp [scanString, digits]
    · have itself : escapedChar c = [c] := by simp [escapedChar, escaped, control]
      have piece : pieceOf c = .char c := by simp [pieceOf, control]
      rw [itself, piece]
      exact scanString_printed escaped.1 escaped.2.1 control

theorem scanString_escaped (cs : List Char) :
    scanString (cs.flatMap escapedChar ++ '"' :: rest) = (⟨cs.map pieceOf, .closed⟩, rest) := by
  induction cs with
  | nil => rfl
  | cons c cs ih =>
    rw [List.flatMap_cons, List.append_assoc, scanString_escapedChar, ih]
    rfl

/-- A text in quotes is one token. -/
@[simp] theorem tokens_quoted (s : String) :
    tokens (quoted s ++ rest) = .string (quotedOf s) :: tokens rest := by
  have shape : quoted s ++ rest = '"' :: (s.toList.flatMap escapedChar ++ '"' :: rest) := by
    simp [quoted]
  rw [shape, tokens_cons (by decide), scanToken]
  simp [scanString_escaped, quotedOf]

theorem charsOf_code {closing : Closing} {n : Nat} (whole : n < 0xD800) (pieces : List Piece) :
    charsOf closing (.code n :: pieces) = (charsOf closing pieces).map (Char.ofNat n :: ·) := by
  have notLeading : isLeading n = false := by
    simp only [isLeading, Bool.and_eq_false_iff, decide_eq_false_iff_not]
    omega
  have notTrailing : isTrailing n = false := by
    simp only [isTrailing, Bool.and_eq_false_iff, decide_eq_false_iff_not]
    omega
  cases pieces with
  | nil => cases closing <;> simp [charsOf, notLeading, notTrailing, Closing.check]
  | cons piece pieces =>
    cases piece <;> simp [charsOf, notLeading, notTrailing]

theorem charsOf_map_pieceOf (cs : List Char) : charsOf .closed (cs.map pieceOf) = .ok cs := by
  induction cs with
  | nil => rfl
  | cons c cs ih =>
    by_cases coded : c.toNat < 0x20 ∧ c ∉ ['\x08', '\t', '\n', '\x0c', '\r']
    · rw [List.map_cons, pieceOf, if_pos coded, charsOf_code (by omega), ih, Char.ofNat_toNat, map_ok]
    · rw [List.map_cons, pieceOf, if_neg coded, charsOf, ih, map_ok]

/-- The text that was written is the text that is read. -/
@[simp] theorem text_quotedOf (s : String) : (quotedOf s).text = .ok s := by
  simp [Quoted.text, quotedOf, charsOf_map_pieceOf]

end Strings

section Numbers

/-- No text starts here that a number in front of it could go on with. -/
def EndsNumber (rest : List Char) : Prop :=
  ∀ c ∈ rest.head?, c.isDigit = false ∧ c ≠ '.' ∧ c ≠ 'e' ∧ c ≠ 'E'

theorem endsNumber_nil : EndsNumber [] := by simp [EndsNumber]

theorem endsNumber_cons {c : Char} (rest : List Char) (stop : c ∈ [',', ']', '}', '\n']) :
    EndsNumber (c :: rest) := by
  simp only [List.mem_cons, List.not_mem_nil, or_false] at stop
  rintro d ⟨⟩
  rcases stop with rfl | rfl | rfl | rfl <;> decide

variable {l : Literal} {digits : List Char}

theorem scanDigits_append (all : AllDigits digits) (some : digits ≠ [])
    (stop : ∀ c ∈ rest.head?, c.isDigit = false) : scanDigits (digits ++ rest) = .ok (digits, rest) := by
  rw [scanDigits, takeWhile_digits all stop, dropWhile_digits all stop]
  cases digits with
  | nil => exact absurd rfl some
  | cons d digits => rfl

theorem scanWhole_append (all : AllDigits digits) (some : digits ≠ [])
    (lead : digits.head? = .some '0' → digits = ['0']) (stop : ∀ c ∈ rest.head?, c.isDigit = false) :
    scanWhole (digits ++ rest) = .ok (digits, rest) := by
  obtain ⟨first, others, rfl⟩ := List.exists_cons_of_ne_nil some
  by_cases zero : first = '0'
  · subst zero
    have alone : others = [] := by simpa using lead rfl
    subst alone
    have noDigit : rest.head?.any Char.isDigit = false := by
      cases rest with
      | nil => rfl
      | cons c rest => exact stop c rfl
    simp [scanWhole, noDigit]
  · rw [List.cons_append, scanWhole]
    · exact scanDigits_append all some stop
    · intro _ same
      exact absurd (List.cons.inj same).1 zero

theorem scanExponent_append (exponent : Option Int) (ends : EndsNumber rest) :
    scanExponent (Literal.exponentPart exponent ++ rest) = .ok (exponent, rest) := by
  cases exponent with
  | none =>
    cases rest with
    | nil => rfl
    | cons c rest =>
      obtain ⟨-, -, lower, upper⟩ := ends c rfl
      simp [Literal.exponentPart, scanExponent, lower, upper]
  | some e =>
    have scanned := scanDigits_append (allDigits_digitsOf e.natAbs) (digitsOf_ne_nil _)
      fun c atHead => (ends c atHead).1
    by_cases negative : e < 0
    · simp [Literal.exponentPart, Literal.exponentText, negative, scanExponent, Literal.takeSign, scanned,
        abs_of_neg negative]
    · simp [Literal.exponentPart, Literal.exponentText, negative, scanExponent, Literal.takeSign, scanned,
        not_lt.mp negative]

theorem scanFraction_point (all : AllDigits digits) (some : digits ≠ [])
    (stop : ∀ c ∈ rest.head?, c.isDigit = false) :
    scanFraction ('.' :: (digits ++ rest)) = .ok (.some digits, rest) := by
  rw [scanFraction, scanDigits_append all some stop]
  rfl

theorem scanFraction_none (noPoint : ∀ c ∈ rest.head?, c ≠ '.') :
    scanFraction rest = .ok (none, rest) := by
  rw [scanFraction]
  rintro after rfl
  exact noPoint '.' rfl rfl

theorem endsDigits_exponentPart (exponent : Option Int) (ends : EndsNumber rest) :
    ∀ c ∈ (Literal.exponentPart exponent ++ rest).head?, c.isDigit = false ∧ c ≠ '.' := by
  cases exponent with
  | none => exact fun c atHead => ⟨(ends c atHead).1, (ends c atHead).2.1⟩
  | some e =>
    rintro c ⟨⟩
    decide

theorem scanUnsigned_append (strict : l.Strict) (ends : EndsNumber rest) :
    scanUnsigned l.negative (l.magnitudeText ++ rest) = .ok (l, rest) := by
  obtain ⟨negative, whole, fraction, exponent⟩ := l
  obtain ⟨all, some, lead, places⟩ := strict
  have stop := endsDigits_exponentPart exponent ends
  have scanned := scanExponent_append exponent ends
  cases fraction with
  | none =>
    have wholeScanned := scanWhole_append all some lead fun c atHead => (stop c atHead).1
    have noPoint := scanFraction_none fun c atHead => (stop c atHead).2
    simp [Literal.magnitudeText, scanUnsigned, wholeScanned, noPoint, scanned]
  | some digits =>
    obtain ⟨digit, more⟩ := places digits rfl
    have point : ∀ c ∈ ('.' :: (digits ++ (Literal.exponentPart exponent ++ rest))).head?,
        c.isDigit = false := by
      rintro c ⟨⟩
      decide
    have wholeScanned := scanWhole_append all some lead point
    have fractionScanned := scanFraction_point digit more fun c atHead => (stop c atHead).1
    simp [Literal.magnitudeText, scanUnsigned, wholeScanned, fractionScanned, scanned]

theorem exists_magnitudeText (strict : l.Strict) :
    ∃ c cs, l.magnitudeText = c :: cs ∧ c.isDigit = true := by
  obtain ⟨first, others, shape⟩ := List.exists_cons_of_ne_nil strict.nonempty
  have digit : first.isDigit = true := strict.whole first (by simp [shape])
  rw [Literal.magnitudeText, shape]
  cases l.fraction with
  | none => exact ⟨first, _, rfl, digit⟩
  | some digits => exact ⟨first, _, rfl, digit⟩

theorem scanNumber_render (strict : l.Strict) (ends : EndsNumber rest) :
    scanNumber (l.render ++ rest) = .ok (l, rest) := by
  have unsigned := scanUnsigned_append strict ends
  rw [Literal.render_eq]
  cases negative : l.negative with
  | true =>
    rw [negative] at unsigned
    exact unsigned
  | false =>
    obtain ⟨c, cs, shape, digit⟩ := exists_magnitudeText strict
    rw [negative, shape] at unsigned
    rw [shape]
    simp only [Bool.false_eq_true, if_false, List.nil_append, List.cons_append]
    rw [scanNumber]
    · exact unsigned
    · intro _ same
      exact (Literal.ne_sign_of_isDigit digit).1 (List.cons.inj same).1

theorem scanToken_number {c : Char} {cs after : List Char} (start : c = '-' ∨ c.isDigit = true)
    (scanned : scanNumber (c :: cs) = .ok (l, after)) : scanToken c cs = (.number l, after) := by
  unfold scanToken
  split
  case h_8 => simp [start, scanned]
  all_goals exact absurd start (by decide)

/-- A number is one token where none of it follows. -/
theorem tokens_render (strict : l.Strict) (ends : EndsNumber rest) :
    tokens (l.render ++ rest) = .number l :: tokens rest := by
  have scanned := scanNumber_render strict ends
  obtain ⟨c, cs, shape, start⟩ : ∃ c cs, l.render = c :: cs ∧ (c = '-' ∨ c.isDigit = true) := by
    rw [Literal.render_eq]
    cases l.negative with
    | true => exact ⟨'-', _, rfl, .inl rfl⟩
    | false =>
      obtain ⟨c, cs, shape, digit⟩ := exists_magnitudeText strict
      exact ⟨c, cs, shape, .inr digit⟩
  have printed : isSpace c = false := by
    rw [Bool.eq_false_iff]
    intro blank
    simp only [isSpace, Bool.or_eq_true, beq_iff_eq] at blank
    rcases blank with ((rfl | rfl) | rfl) | rfl <;> revert start <;> decide
  rw [shape, List.cons_append] at scanned ⊢
  rw [tokens_cons printed, scanToken_number start scanned]

end Numbers

section Layouts

@[simp] theorem tokens_null : tokens ("null".toList ++ rest) = .null :: tokens rest :=
  tokens_cons (by decide)

@[simp] theorem tokens_true : tokens ("true".toList ++ rest) = .bool true :: tokens rest :=
  tokens_cons (by decide)

@[simp] theorem tokens_false : tokens ("false".toList ++ rest) = .bool false :: tokens rest :=
  tokens_cons (by decide)

@[simp] theorem tokens_openArray : tokens ('[' :: rest) = .openArray :: tokens rest :=
  tokens_cons (by decide)

@[simp] theorem tokens_closeArray : tokens (']' :: rest) = .closeArray :: tokens rest :=
  tokens_cons (by decide)

@[simp] theorem tokens_openObject : tokens ('{' :: rest) = .openObject :: tokens rest :=
  tokens_cons (by decide)

@[simp] theorem tokens_closeObject : tokens ('}' :: rest) = .closeObject :: tokens rest :=
  tokens_cons (by decide)

@[simp] theorem tokens_comma : tokens (',' :: rest) = .comma :: tokens rest :=
  tokens_cons (by decide)

@[simp] theorem tokens_colon : tokens (':' :: rest) = .colon :: tokens rest :=
  tokens_cons (by decide)

@[simp] theorem tokens_blank : tokens (' ' :: rest) = tokens rest := tokens_space (by decide)

@[simp] theorem tokens_newline (depth : Nat) : tokens (newline depth ++ rest) = tokens rest := by
  have blanks : ∀ count, tokens (List.replicate count ' ' ++ rest) = tokens rest := by
    intro count
    induction count with
    | zero => rfl
    | succ count ih => rw [List.replicate_succ, List.cons_append, tokens_blank, ih]
  rw [newline, List.cons_append, tokens_space (by decide), blanks]

mutual

/-- The numbers in a value stand as JSON has them. -/
def Strict : Json → Prop
  | .number l => l.Strict
  | .array items => StrictItems items
  | .object members => StrictMembers members
  | .null | .bool _ | .string _ => True

def StrictItems : List Json → Prop
  | [] => True
  | item :: items => Strict item ∧ StrictItems items

def StrictMembers : List (String × Json) → Prop
  | [] => True
  | (_, value) :: members => Strict value ∧ StrictMembers members

end

mutual

/-- The tokens that a value is written in. -/
def tokensOf : Json → List Token
  | .null => [.null]
  | .bool b => [.bool b]
  | .number l => [.number l]
  | .string s => [.string (quotedOf s)]
  | .array [] => [.openArray, .closeArray]
  | .array (item :: items) => .openArray :: tokensOf item ++ itemTokens items ++ [.closeArray]
  | .object [] => [.openObject, .closeObject]
  | .object ((key, value) :: members) =>
    .openObject :: .string (quotedOf key) :: .colon :: tokensOf value ++ memberTokens members ++
      [.closeObject]

def itemTokens : List Json → List Token
  | [] => []
  | item :: items => .comma :: tokensOf item ++ itemTokens items

def memberTokens : List (String × Json) → List Token
  | [] => []
  | (key, value) :: members =>
    .comma :: .string (quotedOf key) :: .colon :: tokensOf value ++ memberTokens members

end

-- The bracket stands in the statements on items and members, as what follows the last of them has to
-- end a number.
theorem ends_compactItems (items : List Json) : EndsNumber (compactItems items ++ ']' :: rest) := by
  cases items <;> exact endsNumber_cons _ (by simp)

theorem ends_compactMembers (members : List (String × Json)) :
    EndsNumber (compactMembers members ++ '}' :: rest) := by
  rcases members with _ | ⟨⟨key, value⟩, members⟩ <;> exact endsNumber_cons _ (by simp)

mutual

theorem tokens_compactChars {j : Json} (strict : j.Strict) {rest : List Char} (ends : EndsNumber rest) :
    tokens (j.compactChars ++ rest) = j.tokensOf ++ tokens rest := by
  cases j with
  | null => exact tokens_null
  | bool b =>
    cases b with
    | true => exact tokens_true
    | false => exact tokens_false
  | number l => exact tokens_render strict ends
  | string s => exact tokens_quoted s
  | array items =>
    cases items with
    | nil => simp [compactChars, tokensOf]
    | cons item items =>
      simp only [compactChars, tokensOf, List.cons_append, List.append_assoc, List.nil_append,
        tokens_openArray]
      rw [tokens_compactChars strict.1 (ends_compactItems items), tokens_compactItems strict.2,
        tokens_closeArray]
  | object members =>
    rcases members with _ | ⟨⟨key, value⟩, members⟩
    · simp [compactChars, tokensOf]
    · simp only [compactChars, tokensOf, List.cons_append, List.append_assoc, List.nil_append,
        tokens_openObject, tokens_quoted, tokens_colon]
      rw [tokens_compactChars strict.1 (ends_compactMembers members), tokens_compactMembers strict.2,
        tokens_closeObject]

theorem tokens_compactItems {items : List Json} (strict : StrictItems items) {rest : List Char} :
    tokens (compactItems items ++ ']' :: rest) = itemTokens items ++ tokens (']' :: rest) := by
  cases items with
  | nil => rfl
  | cons item items =>
    simp only [compactItems, itemTokens, List.cons_append, List.append_assoc, tokens_comma]
    rw [tokens_compactChars strict.1 (ends_compactItems items), tokens_compactItems strict.2]

theorem tokens_compactMembers {members : List (String × Json)} (strict : StrictMembers members)
    {rest : List Char} :
    tokens (compactMembers members ++ '}' :: rest) = memberTokens members ++ tokens ('}' :: rest) := by
  rcases members with _ | ⟨⟨key, value⟩, members⟩
  · rfl
  · simp only [compactMembers, memberTokens, List.cons_append, List.append_assoc, tokens_comma,
      tokens_quoted, tokens_colon]
    rw [tokens_compactChars strict.1 (ends_compactMembers members), tokens_compactMembers strict.2]

end

theorem ends_newline (depth : Nat) : EndsNumber (newline depth ++ rest) := endsNumber_cons _ (by simp)

theorem ends_prettyItems (depth : Nat) (items : List Json) :
    EndsNumber (prettyItems (depth + 1) items ++ (newline depth ++ rest)) := by
  cases items with
  | nil => exact ends_newline depth
  | cons item items => exact endsNumber_cons _ (by simp)

theorem ends_prettyMembers (depth : Nat) (members : List (String × Json)) :
    EndsNumber (prettyMembers (depth + 1) members ++ (newline depth ++ rest)) := by
  rcases members with _ | ⟨⟨key, value⟩, members⟩
  · exact ends_newline depth
  · exact endsNumber_cons _ (by simp)

mutual

theorem tokens_prettyChars {j : Json} (strict : j.Strict) (depth : Nat) {rest : List Char}
    (ends : EndsNumber rest) : tokens (j.prettyChars depth ++ rest) = j.tokensOf ++ tokens rest := by
  cases j with
  | null => exact tokens_null
  | bool b =>
    cases b with
    | true => exact tokens_true
    | false => exact tokens_false
  | number l => exact tokens_render strict ends
  | string s => exact tokens_quoted s
  | array items =>
    cases items with
    | nil => simp [prettyChars, tokensOf]
    | cons item items =>
      simp only [prettyChars, tokensOf, List.cons_append, List.append_assoc, List.nil_append,
        tokens_openArray, tokens_newline]
      rw [tokens_prettyChars strict.1 _ (ends_prettyItems depth items), tokens_prettyItems strict.2,
        tokens_closeArray]
  | object members =>
    rcases members with _ | ⟨⟨key, value⟩, members⟩
    · simp [prettyChars, tokensOf]
    · simp only [prettyChars, tokensOf, List.cons_append, List.append_assoc, List.nil_append,
        tokens_openObject, tokens_newline, tokens_quoted, tokens_colon, tokens_blank]
      rw [tokens_prettyChars strict.1 _ (ends_prettyMembers depth members), tokens_prettyMembers strict.2,
        tokens_closeObject]

theorem tokens_prettyItems {items : List Json} (strict : StrictItems items) {depth : Nat}
    {rest : List Char} :
    tokens (prettyItems (depth + 1) items ++ (newline depth ++ rest)) = itemTokens items ++ tokens rest := by
  cases items with
  | nil => exact tokens_newline depth
  | cons item items =>
    simp only [prettyItems, itemTokens, List.cons_append, List.append_assoc, tokens_comma, tokens_newline]
    rw [tokens_prettyChars strict.1 _ (ends_prettyItems depth items), tokens_prettyItems strict.2]

theorem tokens_prettyMembers {members : List (String × Json)} (strict : StrictMembers members) {depth : Nat}
    {rest : List Char} :
    tokens (prettyMembers (depth + 1) members ++ (newline depth ++ rest)) =
      memberTokens members ++ tokens rest := by
  rcases members with _ | ⟨⟨key, value⟩, members⟩
  · exact tokens_newline depth
  · simp only [prettyMembers, memberTokens, List.cons_append, List.append_assoc, tokens_comma,
      tokens_newline, tokens_quoted, tokens_colon, tokens_blank]
    rw [tokens_prettyChars strict.1 _ (ends_prettyMembers depth members), tokens_prettyMembers strict.2]

end

/-- The tokens of the text without blanks. -/
theorem tokens_compact {j : Json} (strict : j.Strict) : tokens j.compact.toList = j.tokensOf := by
  have tokens := tokens_compactChars strict endsNumber_nil
  simpa [compact] using tokens

/-- The text in lines has the same tokens. -/
theorem tokens_pretty {j : Json} (strict : j.Strict) : tokens j.pretty.toList = j.tokensOf := by
  have tokens := tokens_prettyChars strict 0 endsNumber_nil
  simpa [pretty] using tokens

end Layouts

end FilterQuery.Json
