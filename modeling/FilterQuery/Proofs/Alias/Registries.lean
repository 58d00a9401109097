import FilterQuery.Alias.Registries
import FilterQuery.Proofs.Text.Dotted
import Mathlib.Data.List.Induction

/-!
What holds of registries whatever is done to them. Main statements: no alias is malformed or also the
alias of the root (`Registries.run_sound`), and the aliases of a registry are those of the successful
registrations that have reached it and have not been cleared or overwritten (`Registries.kept_iff`).
-/
namespace FilterQuery

open Text

namespace Registry

variable {r next : Registry} {name path : String}

/-- All that a successful registration does and needs. -/
theorem register_eq_ok_iff : r.register name path = .ok next ↔
    isAliasName name ∧ r.aliases.get? name = none ∧ r.main ≠ some name ∧
      next = { r with aliases := r.aliases.insert name path } := by
  unfold register aliasFault?
  cases named : isAliasName name with
  | false => simp
  | true =>
    cases old : r.aliases.get? name with
    | some path => simp
    | none =>
      by_cases isMain : r.main = some name
      · simp [isMain]
      · simp [isMain, eq_comm]

theorem setMain_eq_ok_iff : r.setMain name = .ok next ↔
    r.aliases.get? name = none ∧ next = { r with main := some name } := by
  unfold setMain
  cases r.aliases.get? name with
  | some path => simp
  | none => simp [eq_comm]

/-- The aliases are names, and none of them is also the alias of the root. -/
structure Sound (r : Registry) : Prop where
  named : ∀ name path, r.aliases.get? name = some path → isAliasName name
  apart : ∀ name, r.main = some name → r.aliases.get? name = none

theorem sound_empty : empty.Sound where
  named := by simp [empty]
  apart := by simp [empty]

theorem Sound.register (sound : r.Sound) (ok : r.register name path = .ok next) : next.Sound := by
  obtain ⟨named, _, notMain, rfl⟩ := register_eq_ok_iff.mp ok
  constructor
  · intro other target known
    rw [Table.get?_insert] at known
    split at known
    · next same => exact same ▸ named
    · exact sound.named other target known
  · intro other isMain
    have differs : name ≠ other := fun same => notMain (same ▸ isMain)
    rw [Table.get?_insert, if_neg differs]
    exact sound.apart other isMain

theorem Sound.setMain (sound : r.Sound) (ok : r.setMain name = .ok next) : next.Sound := by
  obtain ⟨free, rfl⟩ := setMain_eq_ok_iff.mp ok
  constructor
  · exact sound.named
  · intro other isMain
    cases isMain
    exact free

theorem dotless_of_isAliasName (named : isAliasName name) : '.' ∉ name.toList := by
  unfold isAliasName at named
  intro dot
  split at named
  · next empty => simp [empty] at dot
  · next c cs shape =>
    rw [Bool.and_eq_true, List.all_eq_true] at named
    rw [shape] at dot
    rcases List.mem_cons.mp dot with rfl | later
    · exact absurd named.1 (by decide)
    · exact absurd (named.2 _ later) (by decide)

theorem resolve_of_split {head rest : String} (dotless : '.' ∉ head.toList) :
    r.resolve (head ++ "." ++ rest) =
      match r.aliases.get? head with
      | some path => ⟨path ++ "." ++ rest, .aliased, head ++ "." ++ rest⟩
      | none =>
        if r.main = some head then ⟨rest, .mainAlias, head ++ "." ++ rest⟩
        else ⟨head ++ "." ++ rest, .nested, head ++ "." ++ rest⟩ := by
  have cut : splitHead? (head ++ "." ++ rest) = some (head, rest) :=
    splitHead?_eq_some_iff.mpr ⟨rfl, dotless⟩
  cases found : r.aliases.get? head <;> simp [resolve, cut, found]

theorem Sound.resolve_alias (sound : r.Sound) (known : r.aliases.get? name = some path)
    (rest : String) :
    r.resolve (name ++ "." ++ rest) = ⟨path ++ "." ++ rest, .aliased, name ++ "." ++ rest⟩ := by
  have dotless := dotless_of_isAliasName (sound.named name path known)
  simp only [resolve_of_split dotless, known]

theorem Sound.resolve_main (sound : r.Sound) (isMain : r.main = some name) (dotless : '.' ∉ name.toList)
    (rest : String) : r.resolve (name ++ "." ++ rest) = ⟨rest, .mainAlias, name ++ "." ++ rest⟩ := by
  have free := sound.apart name isMain
  simp only [resolve_of_split dotless, free, if_pos isMain]

/-- Where the alias of the root has a dot, it is as good as none: no reference starts with it. -/
theorem resolve_of_dotted_main (isMain : r.main = some name) (dotted : '.' ∈ name.toList) (field : String) :
    r.resolve field = { r with main := none }.resolve field ∧ (r.resolve field).kind ≠ .mainAlias := by
  cases cut : splitHead? field with
  | none => simp [resolve, cut]
  | some parts =>
    obtain ⟨head, rest⟩ := parts
    obtain ⟨rfl, dotless⟩ := splitHead?_eq_some_iff.mp cut
    have differs : r.main ≠ some head := by
      rw [isMain]
      rintro same
      cases same
      exact dotless dotted
    rw [resolve_of_split dotless, resolve_of_split dotless, if_neg differs, if_neg (by simp)]
    cases r.aliases.get? head <;> simp

theorem resolve_of_unknown {field : String}
    (unknown : ∀ head rest, field = head ++ "." ++ rest → '.' ∉ head.toList →
      r.aliases.get? head = none ∧ r.main ≠ some head) :
    r.resolve field = ⟨field, if '.' ∈ field.toList then .nested else .direct, field⟩ := by
  unfold resolve
  cases cut : splitHead? field with
  | none => rw [if_neg (splitHead?_eq_none_iff.mp cut)]
  | some parts =>
    obtain ⟨head, rest⟩ := parts
    obtain ⟨shape, dotless⟩ := splitHead?_eq_some_iff.mp cut
    obtain ⟨notAlias, notMain⟩ := unknown head rest shape dotless
    have dot : '.' ∈ field.toList := by simp [shape]
    simp only [notAlias, if_neg notMain, if_pos dot]

end Registry

namespace Registries

variable {Key : Type} [DecidableEq Key]

theorem run_concat (actions : List (RegistryAction Key)) (action : RegistryAction Key) :
    run (actions ++ [action]) = (run actions).step action := by
  simp [run]

section Soundness

variable {rs : Registries Key}

theorem put_sound (sound : ∀ key, (rs key).Sound) {r : Registry} (new : r.Sound) (key other : Key) :
    (rs.put key r other).Sound := by
  unfold put
  split
  · exact new
  · exact sound other

theorem attempt_sound (sound : ∀ key, (rs key).Sound) {result : Except Fault Registry}
    (new : ∀ r, result = .ok r → r.Sound) (key other : Key) : (rs.attempt key result other).Sound := by
  cases result with
  | ok r => exact put_sound sound (new r rfl) key other
  | error fault => exact sound other

theorem step_sound (sound : ∀ key, (rs key).Sound) (action : RegistryAction Key) (key : Key) :
    (rs.step action key).Sound := by
  cases action with
  | register target name path => exact attempt_sound sound (fun _ => (sound target).register) target key
  | setMain target name => exact attempt_sound sound (fun _ => (sound target).setMain) target key
  | clear target => exact put_sound sound Registry.sound_empty target key
  | copyTo source target | snapshot source target => exact put_sound sound (sound source) target key

theorem run_sound (actions : List (RegistryAction Key)) (key : Key) : (run actions key).Sound := by
  induction actions using List.reverseRecOn generalizing key with
  | nil => exact Registry.sound_empty
  | append_singleton actions action ih =>
    rw [run_concat]
    exact step_sound ih action key

end Soundness

/-- Where the registry under a key has come from with an action, new entries apart, if it has not been
cleared. -/
def sourceOf (key : Key) : RegistryAction Key → Option Key
  | .register _ _ _ | .setMain _ _ => some key
  | .clear target => if key = target then none else some key
  | .copyTo source target | .snapshot source target => if key = target then some source else some key

/-- The alias has been registered for the path under some key, and has come from there to the given one
in the actions since, which are copies and what leaves it where it is. -/
inductive Kept : List (RegistryAction Key) → Key → String → String → Prop
  | registered {actions : List (RegistryAction Key)} {key : Key} {name path : String} {r : Registry} :
      (run actions key).register name path = .ok r → Kept (actions ++ [.register key name path]) key name path
  | came {actions : List (RegistryAction Key)} {action : RegistryAction Key} {source key : Key}
      {name path : String} :
      Kept actions source name path → sourceOf key action = some source →
      Kept (actions ++ [action]) key name path

theorem kept_concat_iff {actions : List (RegistryAction Key)} {action : RegistryAction Key} {key : Key}
    {name path : String} : Kept (actions ++ [action]) key name path ↔
      (∃ r, action = .register key name path ∧ (run actions key).register name path = .ok r) ∨
        ∃ source, sourceOf key action = some source ∧ Kept actions source name path := by
  constructor
  · intro kept
    generalize whole : actions ++ [action] = all at kept
    cases kept with
    | registered ok =>
      obtain ⟨rfl, same⟩ := List.append_inj' whole rfl
      obtain rfl := List.singleton_inj.mp same
      exact .inl ⟨_, rfl, ok⟩
    | came kept source =>
      obtain ⟨rfl, same⟩ := List.append_inj' whole rfl
      obtain rfl := List.singleton_inj.mp same
      exact .inr ⟨_, source, kept⟩
  · rintro (⟨r, rfl, ok⟩ | ⟨source, origin, kept⟩)
    · exact .registered ok
    · exact .came kept origin

/-- After an action a registry has the entry that was just registered, and those of the registry that
it has come from. -/
theorem get?_step_iff {rs : Registries Key} {action : RegistryAction Key} {key : Key}
    {name path : String} : (rs.step action key).aliases.get? name = some path ↔
      (∃ r, action = .register key name path ∧ (rs key).register name path = .ok r) ∨
        ∃ source, sourceOf key action = some source ∧ (rs source).aliases.get? name = some path := by
  cases action with
  | register target other value =>
    simp only [sourceOf, Option.some.injEq, exists_eq_left', RegistryAction.register.injEq]
    cases result : (rs target).register other value with
    | error fault =>
      have notNew : ¬∃ r, (target = key ∧ other = name ∧ value = path) ∧
          (rs key).register name path = .ok r := by
        rintro ⟨r, ⟨rfl, rfl, rfl⟩, ok⟩
        rw [result] at ok
        cases ok
      simp [step, attempt, result, notNew]
    | ok r =>
      obtain ⟨_, free, _, rfl⟩ := Registry.register_eq_ok_iff.mp result
      by_cases here : key = target
      · subst here
        simp only [step, attempt, put, result, if_true, Table.get?_insert]
        by_cases same : other = name
        · subst same
          simp only [if_true, Option.some.injEq, free, reduceCtorEq, or_false, true_and]
          constructor
          · rintro rfl
            exact ⟨_, rfl, result⟩
          · rintro ⟨_, rfl, _⟩
            rfl
        · simp [same]
      · simp [step, attempt, put, result, here, Ne.symm here]
  | setMain target other =>
    simp only [sourceOf, Option.some.injEq, exists_eq_left', reduceCtorEq, false_and, exists_false, false_or]
    cases result : (rs target).setMain other with
    | error fault => simp [step, attempt, result]
    | ok r =>
      obtain ⟨_, rfl⟩ := Registry.setMain_eq_ok_iff.mp result
      by_cases here : key = target <;> simp [step, attempt, put, result, here]
  | clear target => by_cases here : key = target <;> simp [step, put, sourceOf, here, Registry.empty]
  | copyTo source target | snapshot source target =>
    by_cases here : key = target <;> simp [step, put, sourceOf, here]

theorem kept_iff {actions : List (RegistryAction Key)} {key : Key} {name path : String} :
    Kept actions key name path ↔ (run actions key).aliases.get? name = some path := by
  induction actions using List.reverseRecOn generalizing key name path with
  | nil =>
    constructor
    · intro kept
      generalize whole : ([] : List (RegistryAction Key)) = all at kept
      cases kept <;> simp at whole
    · intro known
      cases known
  | append_singleton actions action ih =>
    rw [kept_concat_iff, run_concat, get?_step_iff]
    simp only [ih]

/-- Whatever is done to registries that are empty at first, in each of them the aliases are names, none
is also the alias of the root, and they are those of the registrations that have been kept; so an alias
is expanded in front of any rest, and a field that starts with none is left as it is. -/
theorem run_aliases (actions : List (RegistryAction Key)) (key : Key) :
    (∀ name path, (run actions key).aliases.get? name = some path → isAliasName name) ∧
      (∀ name, (run actions key).main = some name → (run actions key).aliases.get? name = none) ∧
      (∀ name path, (run actions key).aliases.get? name = some path ↔ Kept actions key name path) ∧
      (∀ name path rest, (run actions key).aliases.get? name = some path →
        (run actions key).resolve (name ++ "." ++ rest) =
          ⟨path ++ "." ++ rest, .aliased, name ++ "." ++ rest⟩) ∧
      ∀ field, (∀ head rest, field = head ++ "." ++ rest → '.' ∉ head.toList →
          (run actions key).aliases.get? head = none ∧ (run actions key).main ≠ some head) →
        (run actions key).resolve field =
          ⟨field, if '.' ∈ field.toList then .nested else .direct, field⟩ := by
  have sound := run_sound actions key
  refine ⟨sound.named, sound.apart, fun _ _ => kept_iff.symm, ?_, ?_⟩
  · intro name path rest known
    exact sound.resolve_alias known rest
  · intro field unknown
    exact Registry.resolve_of_unknown unknown

/-- Whatever is done to registries that are empty at first, a reference to a field by the alias of the
root is a path from the root exactly if that alias has no dot, and an alias with a dot is never seen. -/
theorem run_main_iff (actions : List (RegistryAction Key)) (key : Key) {name : String}
    (isMain : (run actions key).main = some name) (field : String) :
    (((run actions key).resolve (name ++ "." ++ field)).kind = .mainAlias ∧
        ((run actions key).resolve (name ++ "." ++ field)).path = field ↔ '.' ∉ name.toList) ∧
      ('.' ∈ name.toList → ∀ other,
        (run actions key).resolve other = { run actions key with main := none }.resolve other) := by
  refine ⟨⟨?_, ?_⟩, ?_⟩
  · rintro ⟨isFound, _⟩ dotted
    exact (Registry.resolve_of_dotted_main isMain dotted _).2 isFound
  · intro dotless
    have found := (run_sound actions key).resolve_main isMain dotless field
    rw [found]
    exact ⟨rfl, rfl⟩
  · intro dotted other
    exact (Registry.resolve_of_dotted_main isMain dotted other).1

/-- The alias of the root is set with a dot, and a reference by it is taken for a path of
associations. -/
theorem run_main_dotted :
    (run [.register 0 "m" "manufacturer", .setMain 0 "a.b"] 0).main = some "a.b" ∧
      (run [.register 0 "m" "manufacturer", .setMain 0 "a.b"] 0).resolve "a.b.f" =
        ⟨"a.b.f", .nested, "a.b.f"⟩ ∧
      ¬(((run [.register 0 "m" "manufacturer", .setMain 0 "a.b"] 0).resolve ("a.b" ++ "." ++ "f")).kind =
          .mainAlias ∧
        ((run [.register 0 "m" "manufacturer", .setMain 0 "a.b"] 0).resolve ("a.b" ++ "." ++ "f")).path =
          "f") :=
  have isMain : (run [.register 0 "m" "manufacturer", .setMain 0 "a.b"] 0).main = some "a.b" := by
    decide +kernel
  ⟨isMain, by decide +kernel, fun found => (run_main_iff _ 0 isMain "f").1.mp found (by decide)⟩

end Registries

end FilterQuery
