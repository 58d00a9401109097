/-!
Finite tables from texts to values, as lists in the order of their keys. Main statements: a table is
determined by what it answers (`Table.ext_get?`), and an insertion changes the answer for its own
key only (`Table.get?_insert`).
-/
namespace FilterQuery

/-- A finite table from texts to values. Its entries stand in increasing order of their keys, so
that equal tables are those that answer alike. -/
structure Table (α : Type) where
  entries : List (String × α)
  sorted : entries.Pairwise fun a b => a.1 < b.1

namespace Table

variable {α β : Type}

instance [DecidableEq α] : DecidableEq (Table α) := fun a b =>
  decidable_of_iff (a.entries = b.entries)
    ⟨fun same => by cases a; cases b; simp_all, fun h => h ▸ rfl⟩

/-- The value under a key in a list of entries, the first of several. -/
def lookup (key : String) : List (String × α) → Option α
  | [] => none
  | (k, v) :: rest => if k = key then some v else lookup key rest

/-- The entries with one more at its place, or with a new value at an old key. -/
def place (key : String) (value : α) : List (String × α) → List (String × α)
  | [] => [(key, value)]
  | (k, v) :: rest =>
    if key < k then (key, value) :: (k, v) :: rest
    else if key = k then (key, value) :: rest
    else (k, v) :: place key value rest

theorem mem_place {key : String} {value : α} {entry : String × α} {entries : List (String × α)}
    (member : entry ∈ place key value entries) : entry = (key, value) ∨ entry ∈ entries := by
  induction entries with
  | nil => simpa [place] using member
  | cons first rest ih =>
    simp only [place] at member
    split at member
    · simpa using member
    · split at member
      · rcases List.mem_cons.mp member with here | later
        · exact .inl here
        · exact .inr (List.mem_cons_of_mem _ later)
      · rcases List.mem_cons.mp member with here | later
        · exact .inr (here ▸ List.mem_cons_self)
        · exact (ih later).imp_right (List.mem_cons_of_mem _)

theorem place_sorted (key : String) (value : α) {entries : List (String × α)}
    (sorted : entries.Pairwise fun a b => a.1 < b.1) :
    (place key value entries).Pairwise fun a b => a.1 < b.1 := by
  induction entries with
  | nil => simp [place]
  | cons first rest ih =>
    obtain ⟨above, tail⟩ := List.pairwise_cons.mp sorted
    simp only [place]
    split
    · next lower =>
      refine List.pairwise_cons.mpr ⟨fun entry member => ?_, sorted⟩
      rcases List.mem_cons.mp member with here | later
      · exact here ▸ lower
      · exact String.lt_trans lower (above entry later)
    · split
      · next same =>
        exact List.pairwise_cons.mpr ⟨fun entry member => same ▸ above entry member, tail⟩
      · next notLower notSame =>
        refine List.pairwise_cons.mpr ⟨fun entry member => ?_, ih tail⟩
        rcases mem_place member with here | later
        · subst here
          apply Decidable.byContradiction
          intro notAbove
          exact notSame (String.le_antisymm notAbove notLower)
        · exact above entry later

def empty : Table α := ⟨[], .nil⟩

instance : Inhabited (Table α) := ⟨empty⟩

def get? (t : Table α) (key : String) : Option α := lookup key t.entries

def contains (t : Table α) (key : String) : Bool := (t.get? key).isSome

/-- The table with the value under the key, in place of any value that was there. -/
def insert (t : Table α) (key : String) (value : α) : Table α :=
  ⟨place key value t.entries, place_sorted key value t.sorted⟩

/-- The table of a list of entries. Of several entries with one key the last one counts. -/
def ofList (entries : List (String × α)) : Table α :=
  entries.foldl (fun t entry => t.insert entry.1 entry.2) empty

/-- The entries in increasing order of their keys. -/
def toList (t : Table α) : List (String × α) := t.entries

def keys (t : Table α) : List String := t.entries.map (·.1)

def size (t : Table α) : Nat := t.entries.length

def isEmpty (t : Table α) : Bool := t.entries.isEmpty

@[simp] theorem get?_empty (key : String) : (empty : Table α).get? key = none := rfl

theorem lookup_place (key other : String) (value : α) (entries : List (String × α)) :
    lookup other (place key value entries) =
      if key = other then some value else lookup other entries := by
  induction entries with
  | nil => simp [place, lookup]
  | cons first rest ih =>
    obtain ⟨k, v⟩ := first
    simp only [place]
    split
    · simp [lookup]
    · split
      · next same => subst same; simp only [lookup]; split <;> rfl
      · next notSame =>
        simp only [lookup, ih]
        by_cases here : k = other
        · subst here; simp [notSame]
        · simp [here]

/-- An insertion changes what a table answers for its own key only. -/
theorem get?_insert (t : Table α) (key other : String) (value : α) :
    (t.insert key value).get? other = if key = other then some value else t.get? other :=
  lookup_place key other value t.entries

theorem lookup_eq_none_of_below {key : String} {entries : List (String × α)}
    (below : ∀ entry ∈ entries, key < entry.1) : lookup key entries = none := by
  induction entries with
  | nil => rfl
  | cons first rest ih =>
    have notHere : first.1 ≠ key := fun same =>
      String.lt_irrefl key (same ▸ below first List.mem_cons_self)
    simp only [lookup, if_neg notHere]
    exact ih fun entry member => below entry (List.mem_cons_of_mem _ member)

theorem lookup_eq_some_iff {key : String} {value : α} {entries : List (String × α)}
    (sorted : entries.Pairwise fun a b => a.1 < b.1) :
    lookup key entries = some value ↔ (key, value) ∈ entries := by
  induction entries with
  | nil => simp [lookup]
  | cons first rest ih =>
    obtain ⟨above, tail⟩ := List.pairwise_cons.mp sorted
    rw [List.mem_cons, ← ih tail, lookup]
    split
    · next here =>
      have none : lookup key rest = none :=
        lookup_eq_none_of_below fun entry member => here ▸ above entry member
      rw [none]
      simp [← here, Prod.ext_iff, eq_comm]
    · next other => simp [Prod.ext_iff, Ne.symm other]

theorem get?_eq_some_iff (t : Table α) {key : String} {value : α} :
    t.get? key = some value ↔ (key, value) ∈ t.entries :=
  lookup_eq_some_iff t.sorted

theorem entries_eq_of_lookup {as bs : List (String × α)}
    (sortedA : as.Pairwise fun a b => a.1 < b.1) (sortedB : bs.Pairwise fun a b => a.1 < b.1)
    (alike : ∀ key, lookup key as = lookup key bs) : as = bs := by
  induction as generalizing bs with
  | nil =>
    cases bs with
    | nil => rfl
    | cons b bs => simpa [lookup] using alike b.1
  | cons a as ih =>
    obtain ⟨aboveA, tailA⟩ := List.pairwise_cons.mp sortedA
    cases bs with
    | nil => simpa [lookup] using alike a.1
    | cons b bs =>
      obtain ⟨aboveB, tailB⟩ := List.pairwise_cons.mp sortedB
      have sameKey : a.1 = b.1 := by
        apply Decidable.byContradiction
        intro differ
        have atA := alike a.1
        have atB := alike b.1
        simp only [lookup, if_pos, if_neg (Ne.symm differ), if_neg differ] at atA atB
        rcases Decidable.em (a.1 < b.1) with lower | notLower
        · have gone : lookup a.1 bs = none := lookup_eq_none_of_below fun entry member =>
            String.lt_trans lower (aboveB entry member)
          rw [gone] at atA
          cases atA
        · have upper : b.1 < a.1 := Decidable.byContradiction fun notUpper =>
            differ (String.le_antisymm notUpper notLower)
          have gone : lookup b.1 as = none := lookup_eq_none_of_below fun entry member =>
            String.lt_trans upper (aboveA entry member)
          rw [gone] at atB
          cases atB
      have sameValue : a.2 = b.2 := by
        have atA := alike a.1
        simp only [lookup, if_pos, if_pos sameKey.symm, Option.some.injEq] at atA
        exact atA
      have sameRest : as = bs := by
        refine ih tailA tailB fun key => ?_
        by_cases here : a.1 = key
        · subst here
          rw [lookup_eq_none_of_below aboveA,
            lookup_eq_none_of_below fun entry member => sameKey ▸ aboveB entry member]
        · have atKey := alike key
          simp only [lookup, if_neg here, if_neg (sameKey ▸ here)] at atKey
          exact atKey
      rw [sameRest, Prod.ext sameKey sameValue]

/-- Tables that answer alike are equal. -/
theorem ext_get? {s t : Table α} (alike : ∀ key, s.get? key = t.get? key) : s = t := by
  obtain ⟨as, sortedA⟩ := s
  obtain ⟨bs, sortedB⟩ := t
  have same : as = bs := entries_eq_of_lookup sortedA sortedB alike
  subst same
  rfl

end Table

end FilterQuery
