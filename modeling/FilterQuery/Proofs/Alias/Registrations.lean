import FilterQuery.Proofs.Alias.Registries
import FilterQuery.Proofs.Outcome
import FilterQuery.Session
import Mathlib.Data.Prod.Lex
import Mathlib.Data.String.Basic

/-!
Registrations one after another. An alias is known in the end exactly if it was known or its registration has
been successful (`Registry.get?_registerAll_iff`). Main statement: under different names registrations may be
done in any order (`Registry.registerAll_perm`).
-/
namespace FilterQuery

/-- In whatever order the entries of a table are taken, they stand in the order of the table when they are sorted by
their keys, and by their values under one key. -/
theorem Table.mergeSort_eq_toList (t : Table String) {taken : List (String × String)}
    (perm : taken.Perm t.toList) : taken.mergeSort (fun a b => toLex a ≤ toLex b) = t.toList := by
  have inOrder : t.toList.Pairwise fun a b => decide (toLex a ≤ toLex b) := by
    refine t.sorted.imp fun lower => ?_
    rw [decide_eq_true_iff]
    exact Prod.Lex.toLex_le_toLex.mpr (.inl lower)
  have sorted : (taken.mergeSort fun a b => toLex a ≤ toLex b).Pairwise fun a b =>
      decide (toLex a ≤ toLex b) := by
    apply List.pairwise_mergeSort
    · intro a b c
      simpa using le_trans
    · intro a b
      simpa using le_total (toLex a) (toLex b)
  refine List.Perm.eq_of_pairwise ?_ sorted inOrder ((List.mergeSort_perm taken _).trans perm)
  intro a b _ _ first second
  exact toLex.injective (le_antisymm (of_decide_eq_true first) (of_decide_eq_true second))

namespace Registry

variable {r : Registry} {entry other : String × String} {entries : List (String × String)}
  {name path : String}

/-- What a registration answers: nothing, or the fault that it has. -/
def answer (r : Registry) (entry : String × String) : Except Fault Unit :=
  (r.register entry.1 entry.2).map fun _ => ()

/-- The registry after a registration, as it was if there is a fault. -/
def registered (r : Registry) (entry : String × String) : Registry :=
  match r.register entry.1 entry.2 with
  | .ok next => next
  | .error _ => r

/-- The registry after registrations of names for paths, one after another, and what each of them has
answered. -/
def registerAll (r : Registry) :
    List (String × String) → Registry × List ((String × String) × Except Fault Unit)
  | [] => (r, [])
  | entry :: entries =>
    let (last, answers) := (r.registered entry).registerAll entries
    (last, (entry, r.answer entry) :: answers)

section Step

theorem answer_eq (r : Registry) (entry : String × String) :
    r.answer entry = match r.aliasFault? entry.1 with
      | some fault => .error (.badAlias entry.1 fault)
      | none => .ok () := by
  unfold answer register
  cases r.aliasFault? entry.1 <;> rfl

theorem answer_eq_ok_iff : r.answer entry = .ok () ↔
    isAliasName entry.1 ∧ r.aliases.get? entry.1 = none ∧ r.main ≠ some entry.1 := by
  have isOk : r.answer entry = .ok () ↔ ∃ next, r.register entry.1 entry.2 = .ok next := by
    simp [answer, map_eq_ok_iff]
  rw [isOk]
  simp [register_eq_ok_iff]

theorem registered_of_ok (ok : r.answer entry = .ok ()) :
    r.registered entry = { r with aliases := r.aliases.insert entry.1 entry.2 } := by
  obtain ⟨named, free, notMain⟩ := answer_eq_ok_iff.mp ok
  rw [registered, register_eq_ok_iff.mpr ⟨named, free, notMain, rfl⟩]

theorem registered_of_fault (fault : r.answer entry ≠ .ok ()) : r.registered entry = r := by
  unfold registered
  cases result : r.register entry.1 entry.2 with
  | error _ => rfl
  | ok next => exact absurd (by rw [answer, result]; rfl) fault

theorem registered_main (r : Registry) (entry : String × String) : (r.registered entry).main = r.main := by
  by_cases ok : r.answer entry = .ok ()
  · rw [registered_of_ok ok]
  · rw [registered_of_fault ok]

/-- A registration makes its own alias known, if it has no fault, and nothing else. -/
theorem get?_registered_iff : (r.registered entry).aliases.get? name = some path ↔
    r.aliases.get? name = some path ∨ entry = (name, path) ∧ r.answer entry = .ok () := by
  by_cases ok : r.answer entry = .ok ()
  · obtain ⟨_, free, _⟩ := answer_eq_ok_iff.mp ok
    rw [registered_of_ok ok, Table.get?_insert]
    by_cases same : entry.1 = name
    · subst same
      simp [free, ok, Prod.ext_iff]
    · simp [same, Prod.ext_iff]
  · simp [registered_of_fault ok, ok]

theorem get?_registered_of_ne (differs : entry.1 ≠ name) :
    (r.registered entry).aliases.get? name = r.aliases.get? name := by
  ext path
  rw [get?_registered_iff]
  refine or_iff_left ?_
  rintro ⟨rfl, _⟩
  exact differs rfl

/-- What a registration answers is not changed by one under another name. -/
theorem answer_registered (differs : entry.1 ≠ other.1) : (r.registered entry).answer other = r.answer other := by
  have fault : (r.registered entry).aliasFault? other.1 = r.aliasFault? other.1 := by
    rw [aliasFault?, aliasFault?, get?_registered_of_ne differs, registered_main]
  rw [answer_eq, answer_eq, fault]

theorem answer_registered_of_mem (new : entry.1 ∉ entries.map (·.1)) (member : other ∈ entries) :
    (r.registered entry).answer other = r.answer other :=
  answer_registered fun same => new (List.mem_map.mpr ⟨other, member, same.symm⟩)

end Step

section Run

theorem registerAll_main (r : Registry) (entries : List (String × String)) :
    (r.registerAll entries).1.main = r.main := by
  induction entries generalizing r with
  | nil => rfl
  | cons entry entries ih => exact (ih (r.registered entry)).trans (registered_main r entry)

/-- Under different names each registration answers what it would answer if it were the only one. -/
theorem registerAll_answers (distinct : (entries.map (·.1)).Nodup) :
    (r.registerAll entries).2 = entries.map fun entry => (entry, r.answer entry) := by
  induction entries generalizing r with
  | nil => rfl
  | cons entry entries ih =>
    obtain ⟨new, distinct⟩ := List.nodup_cons.mp distinct
    have later : ∀ other ∈ entries, (other, (r.registered entry).answer other) = (other, r.answer other) := by
      intro other member
      rw [answer_registered_of_mem new member]
    show (entry, r.answer entry) :: ((r.registered entry).registerAll entries).2 = _
    rw [ih distinct, List.map_congr_left later, List.map_cons]

/-- After registrations under different names those aliases are known that were known before and those of the
registrations without a fault. -/
theorem get?_registerAll_iff (distinct : (entries.map (·.1)).Nodup) :
    (r.registerAll entries).1.aliases.get? name = some path ↔
      r.aliases.get? name = some path ∨ (name, path) ∈ entries ∧ r.answer (name, path) = .ok () := by
  induction entries generalizing r with
  | nil => simp [registerAll]
  | cons entry entries ih =>
    obtain ⟨new, distinct⟩ := List.nodup_cons.mp distinct
    -- The others meet another registry, but one in which their own names are as they were.
    have later : (name, path) ∈ entries → (r.registered entry).answer (name, path) = r.answer (name, path) :=
      answer_registered_of_mem new
    show ((r.registered entry).registerAll entries).1.aliases.get? name = some path ↔ _
    rw [ih distinct, get?_registered_iff, or_assoc, List.mem_cons]
    refine or_congr_right ⟨?_, ?_⟩
    · rintro (⟨rfl, ok⟩ | ⟨member, ok⟩)
      · exact ⟨.inl rfl, ok⟩
      · exact ⟨.inr member, (later member).symm.trans ok⟩
    · rintro ⟨rfl | member, ok⟩
      · exact .inl ⟨rfl, ok⟩
      · exact .inr ⟨member, (later member).trans ok⟩

theorem registerAll_eq_of_perm {others : List (String × String)} (perm : entries.Perm others)
    (distinct : (entries.map (·.1)).Nodup) : (r.registerAll entries).1 = (r.registerAll others).1 := by
  have aliases : (r.registerAll entries).1.aliases = (r.registerAll others).1.aliases := by
    refine Table.ext_get? fun name => Option.ext fun path => ?_
    rw [get?_registerAll_iff distinct, get?_registerAll_iff ((perm.map _).nodup distinct), perm.mem_iff]
  have main : (r.registerAll entries).1.main = (r.registerAll others).1.main := by
    rw [registerAll_main, registerAll_main]
  have parts : ∀ a b : Registry, a.aliases = b.aliases → a.main = b.main → a = b := by
    rintro ⟨_, _⟩ ⟨_, _⟩ rfl rfl
    rfl
  exact parts _ _ aliases main

end Run

/-- Registries that answer alike to whatever is asked of them later, and are listed alike. -/
structure Alike (a b : Registry) : Prop where
  resolve : ∀ field, a.resolve field = b.resolve field
  compile : ∀ catalog mapping root filter,
    Compiler.compile ⟨catalog, a, mapping⟩ root filter = Compiler.compile ⟨catalog, b, mapping⟩ root filter
  setMain : ∀ name, a.setMain name = b.setMain name
  listing : ∀ config root, Session.showAliases ⟨config, a, root⟩ = Session.showAliases ⟨config, b, root⟩

/-- Registrations under different names may be done in any order: each answers what it would answer alone, and the
registries are the same in the end, so that they answer alike from then on. What is listed are the aliases that
were known and those of the registrations without a fault, each once in increasing order, which is what sorting
gives in whatever order they are taken from the registry. -/
theorem registerAll_perm (r : Registry) {entries others : List (String × String)} (perm : entries.Perm others)
    (distinct : (entries.map (·.1)).Nodup) :
    (r.registerAll entries).2 = entries.map (fun entry => (entry, r.answer entry)) ∧
    (r.registerAll others).2 = others.map (fun entry => (entry, r.answer entry)) ∧
    (r.registerAll entries).1 = (r.registerAll others).1 ∧
    Alike (r.registerAll entries).1 (r.registerAll others).1 ∧
    ∃ listed : List (String × String),
      (∀ config root, Session.showAliases ⟨config, (r.registerAll entries).1, root⟩ =
        ("主实体别名: " ++ r.main.getD "(未设置)") ::
          listed.map fun (name, path) => "  " ++ name ++ " -> " ++ path) ∧
      (∀ name path, (name, path) ∈ listed ↔ r.aliases.get? name = some path ∨
        (name, path) ∈ entries ∧ r.answer (name, path) = .ok ()) ∧
      listed.Pairwise (·.1 < ·.1) ∧
      ∀ taken : List (String × String), taken.Perm listed →
        taken.mergeSort (fun a b => toLex a ≤ toLex b) = listed := by
  have same : (r.registerAll entries).1 = (r.registerAll others).1 := registerAll_eq_of_perm perm distinct
  refine ⟨registerAll_answers distinct, registerAll_answers ((perm.map _).nodup distinct), same, ?_,
    (r.registerAll entries).1.aliases.toList, ?_, ?_, (r.registerAll entries).1.aliases.sorted, ?_⟩
  · rw [same]
    exact ⟨fun _ => rfl, fun _ _ _ _ => rfl, fun _ => rfl, fun _ _ => rfl⟩
  · intro config root
    rw [Session.showAliases, registerAll_main]
  · intro name path
    rw [← get?_registerAll_iff distinct, Table.get?_eq_some_iff]
    rfl
  · intro taken
    exact Table.mergeSort_eq_toList _

/-- One registration has no fault, and the others meet an alias, the alias of the root and a malformed name. -/
theorem registerAll_perm_faults :
    (let r : Registry := ⟨.ofList [("m", "manufacturer")], some "p"⟩
    let entries := [("c", "manufacturer.country"), ("m", "maker"), ("p", "parent"), ("1m", "maker")]
    entries.Perm entries.reverse ∧ (entries.map (·.1)).Nodup ∧
      (r.registerAll entries).1 = (r.registerAll entries.reverse).1 ∧
      r.answer ("c", "manufacturer.country") = .ok () ∧
      r.answer ("m", "maker") = .error (.badAlias "m" (.registered "manufacturer")) ∧
      r.answer ("p", "parent") = .error (.badAlias "p" .isMain) ∧
      r.answer ("1m", "maker") = .error (.badAlias "1m" .malformed)) := by
  intro r entries
  have perm : entries.Perm entries.reverse := (List.reverse_perm entries).symm
  have distinct : (entries.map (·.1)).Nodup := by decide +kernel
  exact ⟨perm, distinct, (registerAll_perm r perm distinct).2.2.1, by decide +kernel, by decide +kernel,
    by decide +kernel, by decide +kernel⟩

end Registry

end FilterQuery
