import FilterQuery.Text.Blank
import FilterQuery.Text.Search
import Mathlib.Data.List.Infix

/-!
What the search for a text inside another finds. Main statements: it finds nothing exactly if the
needle does not occur (`find?_eq_none_iff`), and the leftmost place if it does (`find?_eq_some_iff`).
-/
namespace FilterQuery.Text

/-- The text starts with the needle, up to the case of ASCII letters. -/
def Starts (needle cs : List Char) : Prop := ∃ found rest, cs = found ++ rest ∧ sameText needle found

/-- The needle stands somewhere in the text, up to the case of ASCII letters. -/
def Occurs (needle cs : List Char) : Prop := ∃ front back, cs = front ++ back ∧ Starts needle back

/-- The needle does not start anywhere in the front part of a text. -/
def StartsNotIn (needle front back : List Char) : Prop :=
  ∀ before tail, front = before ++ tail → tail ≠ [] → ¬Starts needle (tail ++ back)

section Case

/-- Only the capital letters of ASCII are written otherwise in lower case. -/
theorem toLower_cases (c : Char) :
    c.toLower = c ∨ (65 ≤ c.toNat ∧ c.toNat ≤ 90 ∧ c.toLower.toNat = c.toNat + 32) := by
  unfold Char.toLower
  split
  · next upper =>
    have low : 65 ≤ c.val.toNat := UInt32.le_iff_toNat_le.mp upper.1
    have high : c.val.toNat ≤ 90 := UInt32.le_iff_toNat_le.mp upper.2
    refine .inr ⟨low, high, ?_⟩
    have step : ('a'.val - 'A'.val).toNat = 32 := by decide
    simp only [Char.toNat, UInt32.toNat_add, step]
    omega
  · exact .inl rfl

theorem isLower_iff {c : Char} : c.isLower ↔ 97 ≤ c.toNat ∧ c.toNat ≤ 122 := by
  show (decide (c.val ≥ 'a'.val) && decide (c.val ≤ 'z'.val)) = true ↔ _
  simp only [Bool.and_eq_true, decide_eq_true_eq, ge_iff_le, UInt32.le_iff_toNat_le]
  rfl

theorem eq_of_toLower_eq {c d : Char} (lower : c.toLower = d) (notLetter : d.isLower = false) : c = d := by
  rcases toLower_cases c with same | ⟨low, high, shifted⟩
  · rw [← lower, same]
  · rw [lower] at shifted
    rw [isLower_iff.mpr (by omega)] at notLetter
    cases notLetter

theorem isBlank_toLower (c : Char) : isBlank c.toLower = isBlank c := by
  rcases toLower_cases c with same | ⟨low, high, shifted⟩
  · rw [same]
  · have upper : isBlank c = false := by
      simp [isBlank]
      omega
    have lower : isBlank c.toLower = false := by
      simp [isBlank, shifted]
      omega
    rw [upper, lower]

theorem sameText_iff {as bs : List Char} : sameText as bs ↔ as.map Char.toLower = bs.map Char.toLower := by
  simp [sameText]

theorem sameText_refl (cs : List Char) : sameText cs cs := sameText_iff.mpr rfl

theorem length_eq_of_sameText {as bs : List Char} (same : sameText as bs) : as.length = bs.length := by
  simpa using congrArg List.length (sameText_iff.mp same)

theorem sameText_cons {a b : Char} {as bs : List Char} :
    sameText (a :: as) (b :: bs) ↔ sameLetter a b ∧ sameText as bs := by
  simp [sameText_iff, sameLetter]

theorem sameText_append {as bs cs ds : List Char} (sizes : as.length = cs.length) :
    sameText (as ++ bs) (cs ++ ds) ↔ sameText as cs ∧ sameText bs ds := by
  simp only [sameText_iff, List.map_append]
  constructor
  · intro same
    exact List.append_inj same (by simpa using sizes)
  · rintro ⟨front, back⟩
    rw [front, back]

theorem isBlank_of_sameText {as bs : List Char} (same : sameText as bs)
    (free : ∀ a ∈ as, isBlank a = false) : ∀ b ∈ bs, isBlank b = false := by
  intro b member
  have lower : b.toLower ∈ as.map Char.toLower := by
    rw [sameText_iff.mp same]
    exact List.mem_map_of_mem member
  obtain ⟨a, inside, equal⟩ := List.mem_map.mp lower
  rw [← isBlank_toLower, ← equal, isBlank_toLower]
  exact free a inside

/-- The character is no letter of ASCII, so that no other character is the same up to case. -/
def Caseless (c : Char) : Prop := c.toLower = c ∧ c.isLower = false

instance : DecidablePred Caseless := fun _ => inferInstanceAs (Decidable (_ ∧ _))

theorem Caseless.toLower_eq_iff {c d : Char} (caseless : Caseless c) : d.toLower = c ↔ d = c := by
  constructor
  · intro lower
    exact eq_of_toLower_eq lower caseless.2
  · rintro rfl
    exact caseless.1

/-- A text without letters is written in one way only. -/
theorem eq_of_sameText {as bs : List Char} (caseless : ∀ a ∈ as, Caseless a) (same : sameText as bs) :
    bs = as := by
  induction as generalizing bs with
  | nil => exact List.length_eq_zero_iff.mp (length_eq_of_sameText same).symm
  | cons a as ih =>
    cases bs with
    | nil => cases length_eq_of_sameText same
    | cons b bs =>
      obtain ⟨letter, later⟩ := sameText_cons.mp same
      have mark := caseless a List.mem_cons_self
      have here : b.toLower = a := by rw [← beq_iff_eq.mp letter, mark.1]
      rw [mark.toLower_eq_iff.mp here, ih (fun c member => caseless c (List.mem_cons_of_mem _ member)) later]

/-- A text stands between two marks exactly if it does in lower case. -/
theorem map_toLower_eq_enclosed_iff {first last : Char} (opens : Caseless first) (closes : Caseless last)
    {cs inner : List Char} : cs.map Char.toLower = first :: (inner ++ [last]) ↔
      ∃ other, cs = first :: (other ++ [last]) ∧ other.map Char.toLower = inner := by
  constructor
  · intro lower
    obtain ⟨c, later, rfl, here, lower⟩ := List.map_eq_cons_iff.mp lower
    obtain ⟨other, final, rfl, otherLower, lower⟩ := List.map_eq_append_iff.mp lower
    obtain ⟨d, none, rfl, there, lower⟩ := List.map_eq_cons_iff.mp lower
    obtain rfl := List.map_eq_nil_iff.mp lower
    rw [opens.toLower_eq_iff.mp here, closes.toLower_eq_iff.mp there]
    exact ⟨other, rfl, otherLower⟩
  · rintro ⟨other, rfl, rfl⟩
    simp [opens.1, closes.1]

/-- What is the same as a text between two blanks is a text between two blanks. -/
theorem sameText_between {word found : List Char} (same : sameText (' ' :: word ++ [' ']) found) :
    ∃ other, found = ' ' :: (other ++ [' ']) ∧ sameText word other := by
  have space : Caseless ' ' := by decide
  have lower : found.map Char.toLower = ' ' :: (word.map Char.toLower ++ [' ']) := by
    rw [← sameText_iff.mp same]
    simp [space.1]
  obtain ⟨other, shape, wordLower⟩ := (map_toLower_eq_enclosed_iff space space).mp lower
  exact ⟨other, shape, sameText_iff.mpr wordLower.symm⟩

end Case

section Start

theorem after?_eq_some_iff {needle cs rest : List Char} :
    after? needle cs = some rest ↔ ∃ found, cs = found ++ rest ∧ sameText needle found := by
  induction needle generalizing cs with
  | nil =>
    constructor
    · intro start
      cases start
      exact ⟨[], rfl, rfl⟩
    · rintro ⟨found, rfl, same⟩
      obtain rfl := List.length_eq_zero_iff.mp (length_eq_of_sameText same).symm
      rfl
  | cons n needle ih =>
    cases cs with
    | nil =>
      constructor
      · intro start
        cases start
      · rintro ⟨found, shape, same⟩
        obtain ⟨rfl, _⟩ := List.append_eq_nil_iff.mp shape.symm
        cases length_eq_of_sameText same
    | cons c cs =>
      by_cases letter : sameLetter n c = true
      · rw [after?, if_pos letter, ih]
        constructor
        · rintro ⟨found, rfl, same⟩
          exact ⟨c :: found, rfl, sameText_cons.mpr ⟨letter, same⟩⟩
        · rintro ⟨found, shape, same⟩
          cases found with
          | nil => cases length_eq_of_sameText same
          | cons d found =>
            cases shape
            exact ⟨found, rfl, (sameText_cons.mp same).2⟩
      · rw [after?, if_neg letter]
        constructor
        · intro start
          cases start
        · rintro ⟨found, shape, same⟩
          cases found with
          | nil => cases length_eq_of_sameText same
          | cons d found =>
            cases shape
            exact absurd (sameText_cons.mp same).1 letter

theorem starts_iff {needle cs : List Char} : Starts needle cs ↔ (after? needle cs).isSome := by
  rw [Option.isSome_iff_exists]
  simp only [after?_eq_some_iff]
  exact exists_comm

instance (needle cs : List Char) : Decidable (Starts needle cs) := decidable_of_iff _ starts_iff.symm

theorem after?_eq_none_iff {needle cs : List Char} : after? needle cs = none ↔ ¬Starts needle cs := by
  rw [starts_iff, Option.not_isSome_iff_eq_none]

/-- What starts in the front part of a text stands in it, or is cut at its end. -/
theorem starts_append_cases {needle front back : List Char} (start : Starts needle (front ++ back)) :
    Starts needle front ∨
      ∃ first second, needle = first ++ second ∧ second ≠ [] ∧ sameText first front ∧
        Starts second back := by
  obtain ⟨found, rest, shape, same⟩ := start
  rcases List.append_eq_append_iff.mp shape with ⟨more, rfl, back⟩ | ⟨more, rfl, _⟩
  · by_cases empty : more = []
    · rw [empty, List.append_nil] at same
      exact .inl ⟨front, [], by simp, same⟩
    · have size := length_eq_of_sameText same
      rw [List.length_append] at size
      have sizes : (needle.take front.length).length = front.length := by
        rw [List.length_take]
        omega
      rw [← List.take_append_drop front.length needle, sameText_append sizes] at same
      have rest := length_eq_of_sameText same.2
      have positive := List.length_pos_iff.mpr empty
      refine .inr ⟨_, _, (List.take_append_drop front.length needle).symm, ?_, same.1, _, _, back, same.2⟩
      exact List.ne_nil_of_length_pos (by omega)
  · exact .inl ⟨found, more, rfl, same⟩

/-- Of a text that starts with the needle either a given part in front does, or the needle starts with
that part. -/
theorem starts_append {needle front back : List Char} (start : Starts needle (front ++ back)) :
    Starts needle front ∨ Starts front needle := by
  rcases starts_append_cases start with inside | ⟨first, second, rfl, _, same, _⟩
  · exact .inl inside
  · exact .inr ⟨first, second, rfl, sameText_iff.mpr (sameText_iff.mp same).symm⟩

theorem Starts.head {needle cs : List Char} {c d : Char} (start : Starts needle (d :: cs))
    (head : needle.head? = some c) : d.toLower = c.toLower := by
  obtain ⟨later, rfl⟩ := List.head?_eq_some_iff.mp head
  obtain ⟨found, rest, shape, same⟩ := start
  cases found with
  | nil => cases length_eq_of_sameText same
  | cons e found =>
    obtain ⟨rfl, _⟩ := List.cons_eq_cons.mp shape
    exact (beq_iff_eq.mp (sameText_cons.mp same).1).symm

theorem Starts.append {needle front : List Char} (start : Starts needle front) (back : List Char) :
    Starts needle (front ++ back) := by
  obtain ⟨found, rest, rfl, same⟩ := start
  exact ⟨found, rest ++ back, List.append_assoc _ _ _, same⟩

end Start

section Occurrences

theorem Occurs.append {needle cs : List Char} (occurs : Occurs needle cs) (back : List Char) :
    Occurs needle (cs ++ back) := by
  obtain ⟨front, rest, rfl, start⟩ := occurs
  exact ⟨front, rest ++ back, List.append_assoc _ _ _, start.append back⟩

theorem Occurs.prepend {needle cs : List Char} (occurs : Occurs needle cs) (front : List Char) :
    Occurs needle (front ++ cs) := by
  obtain ⟨before, rest, rfl, start⟩ := occurs
  exact ⟨front ++ before, rest, (List.append_assoc _ _ _).symm, start⟩

/-- Nothing but the empty needle occurs in the empty text. -/
theorem not_occurs_nil {needle : List Char} (nonempty : needle ≠ []) : ¬Occurs needle [] := by
  rintro ⟨front, back, shape, found, rest, rfl, same⟩
  obtain ⟨_, empty⟩ := List.append_eq_nil_iff.mp shape.symm
  obtain ⟨rfl, _⟩ := List.append_eq_nil_iff.mp empty
  exact nonempty (List.length_eq_zero_iff.mp (length_eq_of_sameText same))

theorem occurs_cons_iff {needle cs : List Char} {c : Char} :
    Occurs needle (c :: cs) ↔ Starts needle (c :: cs) ∨ Occurs needle cs := by
  constructor
  · rintro ⟨front, back, shape, start⟩
    cases front with
    | nil => exact .inl (shape ▸ start)
    | cons d front =>
      cases shape
      exact .inr ⟨front, back, rfl, start⟩
  · rintro (start | ⟨front, back, rfl, start⟩)
    · exact ⟨[], _, rfl, start⟩
    · exact ⟨c :: front, back, rfl, start⟩

theorem occurs_iff {needle cs : List Char} : Occurs needle cs ↔ ∃ tail ∈ cs.tails, Starts needle tail := by
  simp only [List.mem_tails]
  constructor
  · rintro ⟨front, back, rfl, start⟩
    exact ⟨back, List.suffix_append front back, start⟩
  · rintro ⟨back, ⟨front, rfl⟩, start⟩
    exact ⟨front, back, rfl, start⟩

instance (needle cs : List Char) : Decidable (Occurs needle cs) := decidable_of_iff _ occurs_iff.symm

theorem StartsNotIn.tail {needle front back : List Char} {c : Char}
    (nowhere : StartsNotIn needle (c :: front) back) : StartsNotIn needle front back := by
  intro before tail shape nonempty
  exact nowhere (c :: before) tail (by rw [shape]; rfl) nonempty

theorem StartsNotIn.of_append {needle front back more : List Char}
    (nowhere : StartsNotIn needle front (back ++ more)) : StartsNotIn needle front back := by
  intro before tail shape nonempty start
  have longer := start.append more
  rw [List.append_assoc] at longer
  exact nowhere before tail shape nonempty longer

theorem StartsNotIn.append {needle first second back : List Char}
    (one : StartsNotIn needle first (second ++ back)) (other : StartsNotIn needle second back) :
    StartsNotIn needle (first ++ second) back := by
  intro before tail shape nonempty
  rcases List.append_eq_append_iff.mp shape with ⟨more, _, rfl⟩ | ⟨more, rfl, rfl⟩
  · exact other more tail rfl nonempty
  · by_cases empty : more = []
    · rw [empty, List.nil_append]
      rw [empty] at nonempty
      exact other [] second rfl (by simpa using nonempty)
    · rw [List.append_assoc]
      exact one before more rfl empty

theorem StartsNotIn.cons {needle front back : List Char} {c : Char}
    (notHere : ¬Starts needle (c :: front ++ back)) (nowhere : StartsNotIn needle front back) :
    StartsNotIn needle (c :: front) back := by
  intro before tail shape nonempty
  cases before with
  | nil =>
    rw [List.nil_append] at shape
    rw [← shape]
    exact notHere
  | cons d before => exact nowhere before tail (List.cons.inj shape).2 nonempty

/-- What occurs in a text where it does not start anywhere in the front part occurs behind that. -/
theorem occurs_of_append {needle front back : List Char} (occurs : Occurs needle (front ++ back))
    (nowhere : StartsNotIn needle front back) : Occurs needle back := by
  induction front with
  | nil => exact occurs
  | cons c front ih =>
    rcases occurs_cons_iff.mp occurs with start | later
    · exact absurd start (nowhere [] (c :: front) rfl (List.cons_ne_nil _ _))
    · exact ih later nowhere.tail

theorem Occurs.of_isInfix {needle cs text : List Char} (occurs : Occurs needle cs) (inside : cs <:+: text) :
    Occurs needle text := by
  obtain ⟨front, back, rfl⟩ := inside
  exact (occurs.prepend front).append back

/-- What does not start in a text does not occur in it. -/
theorem StartsNotIn.not_occurs {needle front back : List Char} (nonempty : needle ≠ [])
    (nowhere : StartsNotIn needle front back) : ¬Occurs needle front := by
  rintro ⟨before, tail, shape, start⟩
  refine nowhere before tail shape ?_ (start.append back)
  rintro rfl
  exact not_occurs_nil nonempty ⟨[], [], rfl, start⟩

theorem Occurs.mem {needle cs : List Char} (occurs : Occurs needle cs) {c : Char} (member : c ∈ needle) :
    ∃ d ∈ cs, d.toLower = c.toLower := by
  obtain ⟨front, back, rfl, found, rest, rfl, same⟩ := occurs
  have lower : c.toLower ∈ found.map Char.toLower := by
    rw [← sameText_iff.mp same]
    exact List.mem_map_of_mem member
  obtain ⟨d, inside, equal⟩ := List.mem_map.mp lower
  exact ⟨d, by simp [inside], equal⟩

/-- What occurs in a text stands on one side of each character that is not in it. -/
theorem occurs_of_split {needle before after : List Char} {c : Char} (nonempty : needle ≠ [])
    (outside : ∀ d ∈ needle, d.toLower ≠ c.toLower) (occurs : Occurs needle (before ++ c :: after)) :
    Occurs needle before ∨ Occurs needle after := by
  have notHere : ∀ {part rest : List Char}, part ≠ [] → (∀ d ∈ part, d ∈ needle) →
      ¬Starts part (c :: rest) := by
    intro part rest some inNeedle start
    obtain ⟨d, more, rfl⟩ := List.exists_cons_of_ne_nil some
    exact outside d (inNeedle d List.mem_cons_self) (start.head rfl).symm
  obtain ⟨front, back, shape, start⟩ := occurs
  rcases List.append_eq_append_iff.mp shape with ⟨more, rfl, behind⟩ | ⟨more, rfl, rfl⟩
  · cases more with
    | nil =>
      rw [List.nil_append] at behind
      rw [← behind] at start
      exact absurd start (notHere nonempty fun _ => id)
    | cons d more =>
      rw [(List.cons.inj behind).2]
      exact .inr ⟨more, back, rfl, start⟩
  · rcases starts_append_cases start with inside | ⟨first, second, rfl, some, _, across⟩
    · exact .inl ⟨front, more, rfl, inside⟩
    · exact absurd across (notHere some fun d member => List.mem_append_right _ member)

/-- A text that is followed by a blank keeps a needle from starting in it if at each place in it the
two differ before either ends. -/
def Bars (text needle : List Char) : Prop :=
  ∀ tail ∈ text.tails, tail ≠ [] → ¬Starts needle (tail ++ [' ']) ∧ ¬Starts (tail ++ [' ']) needle

instance (text needle : List Char) : Decidable (Bars text needle) :=
  inferInstanceAs (Decidable (∀ _ ∈ _, _))

theorem Bars.startsNotIn {text needle : List Char} (bars : Bars text needle) (back : List Char) :
    StartsNotIn needle text (' ' :: back) := by
  intro before tail shape nonempty start
  have inside : tail ∈ text.tails := by
    rw [List.mem_tails, shape]
    exact List.suffix_append before tail
  obtain ⟨notNeedle, notTail⟩ := bars tail inside nonempty
  rw [← List.singleton_append, ← List.append_assoc] at start
  rcases starts_append start with needleFirst | tailFirst
  · exact notNeedle needleFirst
  · exact notTail tailFirst

end Occurrences

theorem byteLength_eq (cs : List Char) : byteLength cs = (String.ofList cs).utf8ByteSize := by
  induction cs with
  | nil => rfl
  | cons c cs ih =>
    have parts : String.ofList (c :: cs) = String.singleton c ++ String.ofList cs := by
      rw [String.singleton_eq_ofList, ← String.ofList_append]
      rfl
    rw [byteLength, ih, parts, String.utf8ByteSize_append, String.utf8ByteSize_singleton]

section Find

variable {needle cs : List Char}

theorem leftmost?_eq_none_iff (nonempty : needle ≠ []) : leftmost? needle cs = none ↔ ¬Occurs needle cs := by
  induction cs with
  | nil => exact iff_of_true rfl (not_occurs_nil nonempty)
  | cons c cs ih =>
    rw [occurs_cons_iff, leftmost?]
    cases start : after? needle (c :: cs) with
    | some rest =>
      have starts : Starts needle (c :: cs) := starts_iff.mpr (by rw [start]; rfl)
      simp [starts]
    | none =>
      have starts := after?_eq_none_iff.mp start
      simp [starts, ih]

theorem find?_eq_none_iff (nonempty : needle ≠ []) : find? needle cs = none ↔ ¬Occurs needle cs := by
  rw [find?, if_neg (by simpa using nonempty), leftmost?_eq_none_iff nonempty]

theorem leftmost?_found {o : Occurrence} (found : leftmost? needle cs = some o) :
    sameText needle o.found := by
  induction cs generalizing o with
  | nil => cases found
  | cons c cs ih =>
    rw [leftmost?] at found
    cases start : after? needle (c :: cs) with
    | some rest =>
      rw [start] at found
      cases found
      obtain ⟨front, shape, same⟩ := after?_eq_some_iff.mp start
      rw [shape, length_eq_of_sameText same, List.take_left]
      exact same
    | none =>
      rw [start] at found
      obtain ⟨inner, later, rfl⟩ := Option.map_eq_some_iff.mp found
      have same := ih later
      exact same

/-- What is found is the needle, up to the case of ASCII letters, with the rest of the text around
it. -/
theorem find?_found {o : Occurrence} (found : find? needle cs = some o) :
    o.before ++ o.found ++ o.after = cs ∧ sameText needle o.found := by
  unfold find? at found
  split at found
  · cases found
  · exact ⟨Occurrence.append_eq found, leftmost?_found found⟩

/-- What is found is found at its first place. -/
theorem leftmost?_first {o : Occurrence} (found : leftmost? needle cs = some o) :
    StartsNotIn needle o.before (o.found ++ o.after) := by
  induction cs generalizing o with
  | nil => cases found
  | cons c cs ih =>
    have whole := Occurrence.append_eq found
    rw [leftmost?] at found
    cases start : after? needle (c :: cs) with
    | some rest =>
      rw [start] at found
      cases found
      intro before tail shape nonempty
      exact absurd (List.append_eq_nil_iff.mp shape.symm).2 nonempty
    | none =>
      rw [start] at found
      obtain ⟨inner, later, rfl⟩ := Option.map_eq_some_iff.mp found
      have notHere := after?_eq_none_iff.mp start
      rw [← whole, List.append_assoc] at notHere
      exact (ih later).cons notHere

theorem find?_first {o : Occurrence} (found : find? needle cs = some o) :
    StartsNotIn needle o.before (o.found ++ o.after) := by
  unfold find? at found
  split at found
  · cases found
  · exact leftmost?_first found

theorem occurs_of_isSome (found : (find? needle cs).isSome) : Occurs needle cs := by
  obtain ⟨o, here⟩ := Option.isSome_iff_exists.mp found
  obtain ⟨shape, same⟩ := find?_found here
  exact ⟨o.before, o.found ++ o.after, by rw [← shape, List.append_assoc], o.found, o.after, rfl, same⟩

/-- The needle is found where it stands, if it does not start anywhere before. -/
theorem find?_append {front found back : List Char} (nonempty : needle ≠ [])
    (same : sameText needle found)
    (first : StartsNotIn needle front (found ++ back)) :
    find? needle (front ++ (found ++ back)) = some ⟨front, found, back⟩ := by
  rw [find?, if_neg (by simpa using nonempty)]
  induction front with
  | nil =>
    have start : after? needle (found ++ back) = some back := after?_eq_some_iff.mpr ⟨found, rfl, same⟩
    have here : (found ++ back).take needle.length = found := by
      rw [length_eq_of_sameText same, List.take_left]
    cases shape : found ++ back with
    | nil =>
      obtain ⟨rfl, _⟩ := List.append_eq_nil_iff.mp shape
      exact absurd (List.length_eq_zero_iff.mp (length_eq_of_sameText same)) nonempty
    | cons c cs =>
      rw [shape] at start here
      rw [List.nil_append, leftmost?, start]
      simp only [here]
  | cons c front ih =>
    have notHere := after?_eq_none_iff.mpr (first [] (c :: front) rfl (List.cons_ne_nil _ _))
    have later := ih first.tail
    rw [List.cons_append] at notHere ⊢
    rw [leftmost?, notHere, later]
    rfl

/-- What does not start in the front part of a text starts at its end at the earliest. -/
theorem startsNotIn_iff_leftmost {front back : List Char} :
    StartsNotIn needle front back ↔ ∀ before tail, front ++ back = before ++ tail → Starts needle tail →
      front.length ≤ before.length := by
  constructor
  · intro nowhere before tail shape start
    rcases List.append_eq_append_iff.mp shape with ⟨more, rfl, _⟩ | ⟨more, rfl, rfl⟩
    · simp
    · by_cases empty : more = []
      · simp [empty]
      · exact absurd start (nowhere before more rfl empty)
  · rintro leftmost before tail rfl nonempty start
    have early := leftmost before (tail ++ back) (List.append_assoc _ _ _) start
    rw [List.length_append] at early
    have positive := List.length_pos_iff.mpr nonempty
    omega

theorem find?_eq_some_iff (nonempty : needle ≠ []) {o : Occurrence} :
    find? needle cs = some o ↔ o.before ++ o.found ++ o.after = cs ∧ sameText needle o.found ∧
      StartsNotIn needle o.before (o.found ++ o.after) := by
  constructor
  · intro found
    obtain ⟨parts, same⟩ := find?_found found
    exact ⟨parts, same, find?_first found⟩
  · rintro ⟨rfl, same, first⟩
    rw [List.append_assoc]
    exact find?_append nonempty same first

end Find

end FilterQuery.Text
