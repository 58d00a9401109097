import FilterQuery.Entity

/-!
Short names of entities. Main statement: the short name is the shortest of the texts that are the whole name or
stand at its end right behind a separator, so that no separator is in it, and it is its own short name
(`shortName_eq_iff_shortest`).
-/
namespace FilterQuery

variable {first sofar rest cs : List Char} {c : Char} {entity name : String}

def separators : List String := ["::", "\\", "/"]

/-- The text is the whole name, or stands at its end right behind a separator. -/
def IsUnqualified (entity name : String) : Prop :=
  name = entity ∨ ∃ front, ∃ separator ∈ separators, entity = front ++ separator ++ name

/-- In the text the rest stands right behind a separator. -/
def BehindSeparator (cs rest : List Char) : Prop :=
  ∃ front, ∃ separator ∈ separators, cs = front ++ (separator.toList ++ rest)

theorem separator_ne_nil : ∀ separator ∈ separators, separator.toList ≠ [] := by decide

theorem isUnqualified_iff :
    IsUnqualified entity name ↔ name.toList = entity.toList ∨ BehindSeparator entity.toList name.toList := by
  unfold IsUnqualified BehindSeparator
  rw [String.toList_inj]
  refine or_congr_right ⟨?_, ?_⟩
  · rintro ⟨front, separator, known, rfl⟩
    exact ⟨front.toList, separator, known, by simp⟩
  · rintro ⟨front, separator, known, shape⟩
    refine ⟨String.ofList front, separator, known, String.toList_injective ?_⟩
    simp [shape]

section Separators

/-- What is at the start of a text tells whether a separator is there, and what is behind it. -/
theorem starts_separator_iff : (∃ separator ∈ separators, c :: cs = separator.toList ++ rest) ↔
    c = ':' ∧ cs = ':' :: rest ∨ (c = '\\' ∨ c = '/') ∧ rest = cs := by
  rw [or_and_right]
  simp [separators, eq_comm]

theorem not_behindSeparator_nil : ¬BehindSeparator [] rest := by
  rintro ⟨front, separator, known, shape⟩
  simp [separator_ne_nil separator known] at shape

theorem behindSeparator_cons_iff : BehindSeparator (c :: cs) rest ↔
    (∃ separator ∈ separators, c :: cs = separator.toList ++ rest) ∨ BehindSeparator cs rest := by
  constructor
  · rintro ⟨front, separator, known, shape⟩
    cases front with
    | nil => exact .inl ⟨separator, known, shape⟩
    | cons d front => exact .inr ⟨front, separator, known, (List.cons.inj shape).2⟩
  · rintro (⟨separator, known, shape⟩ | ⟨front, separator, known, rfl⟩)
    · exact ⟨[], separator, known, shape⟩
    · exact ⟨c :: front, separator, known, rfl⟩

theorem BehindSeparator.length_lt (follows : BehindSeparator cs rest) : rest.length < cs.length := by
  obtain ⟨front, separator, known, rfl⟩ := follows
  have positive := List.length_pos_iff.mpr (separator_ne_nil separator known)
  simp only [List.length_append]
  omega

theorem BehindSeparator.isSuffix (follows : BehindSeparator cs rest) : rest <:+ cs := by
  obtain ⟨front, separator, _, rfl⟩ := follows
  rw [← List.append_assoc]
  exact List.suffix_append _ _

theorem BehindSeparator.prepend (follows : BehindSeparator cs rest) (front : List Char) :
    BehindSeparator (front ++ cs) rest := by
  obtain ⟨before, separator, known, rfl⟩ := follows
  exact ⟨front ++ before, separator, known, (List.append_assoc _ _ _).symm⟩

end Separators

section Scan

/-- The result is what stands behind the last separator in the text, or what it was so far if there is no
separator. -/
def IsLast (sofar cs result : List Char) : Prop :=
  (result = sofar ∧ ∀ rest, ¬BehindSeparator cs rest) ∨
    (BehindSeparator cs result ∧ ∀ rest, BehindSeparator cs rest → result.length ≤ rest.length)

/-- A separator at the start counts if there is none behind it. -/
theorem IsLast.of_separator {result : List Char} (last : IsLast first cs result)
    (starts : ∀ rest, (∃ separator ∈ separators, c :: cs = separator.toList ++ rest) ↔ rest = first)
    (short : cs.length ≤ first.length + 1) : IsLast sofar (c :: cs) result := by
  right
  rcases last with ⟨rfl, none⟩ | ⟨follows, least⟩
  · refine ⟨behindSeparator_cons_iff.mpr (.inl ((starts result).mpr rfl)), fun rest other => ?_⟩
    rcases behindSeparator_cons_iff.mp other with here | later
    · exact Nat.le_of_eq (congrArg List.length ((starts rest).mp here).symm)
    · exact absurd later (none rest)
  · refine ⟨behindSeparator_cons_iff.mpr (.inr follows), fun rest other => ?_⟩
    rcases behindSeparator_cons_iff.mp other with here | later
    · rw [(starts rest).mp here]
      have shorter := follows.length_lt
      omega
    · exact least rest later

theorem IsLast.of_no_separator {result : List Char} (last : IsLast sofar cs result)
    (starts : ∀ rest, ¬∃ separator ∈ separators, c :: cs = separator.toList ++ rest) :
    IsLast sofar (c :: cs) result := by
  have same : ∀ rest, BehindSeparator (c :: cs) rest ↔ BehindSeparator cs rest := fun rest =>
    behindSeparator_cons_iff.trans (or_iff_right (starts rest))
  simpa only [IsLast, same] using last

theorem isLast_afterSeparators (sofar cs : List Char) : IsLast sofar cs (afterSeparators sofar cs) := by
  fun_induction afterSeparators sofar cs with
  | case1 sofar => exact .inl ⟨rfl, fun _ => not_behindSeparator_nil⟩
  | case2 sofar c cs single ih =>
    refine ih.of_separator (fun rest => ?_) (Nat.le_succ _)
    have slash : c = '\\' ∨ c = '/' := by simpa using single
    have notColon : c ≠ ':' := by rcases slash with rfl | rfl <;> decide
    simp [starts_separator_iff, slash, notColon]
  | case3 sofar rest _ ih =>
    -- The scan goes on at the second colon, with which the next pair may begin.
    refine ih.of_separator (fun other => ?_) (by simp)
    simp [starts_separator_iff, eq_comm]
  | case4 sofar c cs notSingle notPair ih =>
    refine ih.of_no_separator fun rest starts => ?_
    rcases starts_separator_iff.mp starts with ⟨colon, pair⟩ | ⟨slash, _⟩
    · exact notPair rest colon pair
    · exact notSingle (by simpa using slash)

end Scan

theorem toList_shortName (entity : String) :
    (shortName entity).toList = afterSeparators entity.toList entity.toList := by
  rw [shortName, String.toList_ofList]

theorem isUnqualified_shortName (entity : String) : IsUnqualified entity (shortName entity) := by
  rw [isUnqualified_iff, toList_shortName]
  rcases isLast_afterSeparators entity.toList entity.toList with ⟨whole, _⟩ | ⟨follows, _⟩
  · exact .inl whole
  · exact .inr follows

theorem IsUnqualified.length_shortName_le (unqualified : IsUnqualified entity name) :
    (shortName entity).length ≤ name.length := by
  rw [isUnqualified_iff] at unqualified
  rw [← String.length_toList, ← String.length_toList, toList_shortName]
  rcases isLast_afterSeparators entity.toList entity.toList with ⟨whole, none⟩ | ⟨follows, least⟩
  · rcases unqualified with same | behind
    · exact Nat.le_of_eq (congrArg List.length (whole.trans same.symm))
    · exact absurd behind (none _)
  · rcases unqualified with same | behind
    · rw [same]
      exact Nat.le_of_lt follows.length_lt
    · exact least _ behind

theorem not_behindSeparator_shortName (entity : String) : ¬BehindSeparator (shortName entity).toList rest := by
  intro behind
  have inName : BehindSeparator entity.toList rest := by
    rcases isUnqualified_iff.mp (isUnqualified_shortName entity) with whole | follows
    · exact whole ▸ behind
    · obtain ⟨front, shape⟩ := follows.isSuffix
      exact shape ▸ behind.prepend front
  have unqualified : IsUnqualified entity (String.ofList rest) :=
    isUnqualified_iff.mpr (.inr (by rwa [String.toList_ofList]))
  have least := unqualified.length_shortName_le
  have shorter := behind.length_lt
  rw [← String.length_toList, ← String.length_toList, String.toList_ofList] at least
  omega

theorem IsUnqualified.isSuffix (unqualified : IsUnqualified entity name) : name.toList <:+ entity.toList := by
  rcases isUnqualified_iff.mp unqualified with same | behind
  · exact same ▸ List.suffix_refl _
  · exact behind.isSuffix

/-- The short name of an entity is the shortest of the texts that are the whole name or stand at its end right
behind a separator. So there is no separator in it, and it is its own short name. -/
theorem shortName_eq_iff_shortest (entity : String) :
    (∀ name, shortName entity = name ↔ IsUnqualified entity name ∧
      ∀ other, IsUnqualified entity other → name.length ≤ other.length) ∧
    (∀ separator ∈ separators, ∀ front back, shortName entity ≠ front ++ separator ++ back) ∧
    shortName (shortName entity) = shortName entity := by
  refine ⟨fun name => ⟨?_, ?_⟩, ?_, ?_⟩
  · rintro rfl
    exact ⟨isUnqualified_shortName entity, fun other => IsUnqualified.length_shortName_le⟩
  · rintro ⟨unqualified, least⟩
    have size : (shortName entity).toList.length = name.toList.length := by
      rw [String.length_toList, String.length_toList]
      exact Nat.le_antisymm unqualified.length_shortName_le (least _ (isUnqualified_shortName entity))
    have ending := List.suffix_of_suffix_length_le (isUnqualified_shortName entity).isSuffix
      unqualified.isSuffix (Nat.le_of_eq size)
    exact String.toList_injective (ending.eq_of_length size)
  · intro separator known front back shape
    have behind : BehindSeparator (shortName entity).toList back.toList :=
      ⟨front.toList, separator, known, by simp [shape]⟩
    exact not_behindSeparator_shortName entity behind
  · rcases isUnqualified_iff.mp (isUnqualified_shortName (shortName entity)) with same | behind
    · exact String.toList_injective same
    · exact absurd behind (not_behindSeparator_shortName entity)

example : shortName "app::entity:::Product" = "Product" := by decide +kernel

end FilterQuery
