import Mathlib.Data.List.Forall2

/-!
Outcomes that are a value or a fault. Main statements: a run over a list fails with the first fault
(`foldlM_fails_iff`), and runs over two lists whose steps concur do so in the end (`Concur.foldlM`).
-/
namespace FilterQuery

variable {ε α β : Type}

@[simp] theorem ok_bind (a : α) (f : α → Except ε β) : (Except.ok a >>= f) = f a := rfl

@[simp] theorem map_ok (f : α → β) (a : α) : (Except.ok a : Except ε α).map f = .ok (f a) := rfl

@[simp] theorem map_error (f : α → β) (e : ε) : (Except.error e : Except ε α).map f = .error e := rfl

theorem bind_eq_ok_iff {x : Except ε α} {f : α → Except ε β} {b : β} :
    (x >>= f) = .ok b ↔ ∃ a, x = .ok a ∧ f a = .ok b := by
  cases x with
  | error e =>
    constructor
    · intro ok
      cases ok
    · rintro ⟨_, ok, _⟩
      cases ok
  | ok a =>
    constructor
    · intro ok
      exact ⟨a, rfl, ok⟩
    · rintro ⟨_, same, ok⟩
      cases same
      exact ok

theorem bind_eq_error_iff {x : Except ε α} {f : α → Except ε β} {e : ε} :
    (x >>= f) = .error e ↔ x = .error e ∨ ∃ a, x = .ok a ∧ f a = .error e := by
  cases x with
  | error fault =>
    constructor
    · intro failed
      cases failed
      exact .inl rfl
    · rintro (failed | ⟨_, ok, _⟩)
      · cases failed
        rfl
      · cases ok
  | ok a =>
    constructor
    · intro failed
      exact .inr ⟨a, rfl, failed⟩
    · rintro (failed | ⟨_, same, failed⟩)
      · cases failed
      · cases same
        exact failed

theorem map_eq_ok_iff {f : α → β} {x : Except ε α} {b : β} :
    x.map f = .ok b ↔ ∃ a, x = .ok a ∧ b = f a := by
  cases x with
  | error e => simp
  | ok a => simp [eq_comm]

theorem map_eq_error_iff {f : α → β} {x : Except ε α} {e : ε} : x.map f = .error e ↔ x = .error e := by
  cases x <;> simp

theorem mapError_eq_ok_iff {δ : Type} {f : ε → δ} {x : Except ε α} {a : α} :
    x.mapError f = .ok a ↔ x = .ok a := by
  cases x with
  | error first =>
    show Except.error (f first) = .ok a ↔ _
    simp
  | ok b =>
    show Except.ok b = .ok a ↔ _
    simp

theorem mapError_eq_error_iff {δ : Type} {f : ε → δ} {x : Except ε α} {e : δ} :
    x.mapError f = .error e ↔ ∃ first, x = .error first ∧ e = f first := by
  cases x with
  | error first =>
    show Except.error (f first) = .error e ↔ _
    simp [eq_comm]
  | ok a =>
    show Except.ok a = .error e ↔ _
    simp

@[simp] theorem isOk_ok (a : α) : (Except.ok a : Except ε α).isOk = true := rfl

@[simp] theorem isOk_error (e : ε) : (Except.error e : Except ε α).isOk = false := rfl

theorem isOk_iff {x : Except ε α} : x.isOk ↔ ∀ e, x ≠ .error e := by
  cases x with
  | error e => simp
  | ok a => simp

theorem eq_ok_of_toOption {x : Except ε α} {a : α} (shown : x.toOption = some a) : x = .ok a := by
  cases x with
  | error e => cases shown
  | ok b => exact congrArg Except.ok (Option.some.inj shown)

theorem exists_ok_of_map_toOption {x : Except ε α} {f : α → β} {b : β}
    (shown : x.toOption.map f = some b) : ∃ a, x = .ok a ∧ f a = b := by
  cases x with
  | error e => cases shown
  | ok a => exact ⟨a, rfl, Option.some.inj shown⟩

theorem mapM_eq_ok_iff {f : α → Except ε β} {as : List α} {bs : List β} :
    as.mapM f = .ok bs ↔ as.map f = bs.map .ok := by
  induction as generalizing bs with
  | nil =>
    rw [List.mapM_nil, List.map_nil, eq_comm (b := bs.map _), List.map_eq_nil_iff]
    constructor
    · intro ok
      cases ok
      rfl
    · rintro rfl
      rfl
  | cons a as ih =>
    rw [List.mapM_cons, bind_eq_ok_iff]
    constructor
    · rintro ⟨b, here, ok⟩
      obtain ⟨later, mapped, same⟩ := bind_eq_ok_iff.mp ok
      cases same
      rw [List.map_cons, List.map_cons, here, ih.mp mapped]
    · intro mapped
      cases bs with
      | nil => cases mapped
      | cons b bs =>
        obtain ⟨here, rest⟩ := List.cons.inj mapped
        exact ⟨b, here, bind_eq_ok_iff.mpr ⟨bs, ih.mpr rest, rfl⟩⟩

theorem length_of_mapM_eq_ok {f : α → Except ε β} {as : List α} {bs : List β} (ok : as.mapM f = .ok bs) :
    bs.length = as.length := by
  simpa using (congrArg List.length (mapM_eq_ok_iff.mp ok)).symm

theorem exists_of_mem_of_mapM {f : α → Except ε β} {as : List α} {bs : List β} (ok : as.mapM f = .ok bs)
    {b : β} (member : b ∈ bs) : ∃ a ∈ as, f a = .ok b := by
  have inside : Except.ok b ∈ as.map f := by
    rw [mapM_eq_ok_iff.mp ok]
    exact List.mem_map_of_mem member
  exact List.mem_map.mp inside

/-- A list is mapped to the fault of the first element that has one. -/
theorem mapM_eq_error {f : α → Except ε β} {before after : List α} {a : α} {e : ε}
    (others : ∀ other ∈ before, (f other).isOk) (fault : f a = .error e) :
    (before ++ a :: after).mapM f = .error e := by
  induction before with
  | nil =>
    rw [List.nil_append, List.mapM_cons, fault]
    rfl
  | cons first before ih =>
    have later := ih fun other member => others other (List.mem_cons_of_mem _ member)
    have here := others first List.mem_cons_self
    rw [List.cons_append, List.mapM_cons]
    cases ok : f first with
    | error e => simp [ok] at here
    | ok b => exact bind_eq_error_iff.mpr (.inr ⟨b, rfl, bind_eq_error_iff.mpr (.inl later)⟩)

/-- What each step keeps, a run over a list keeps. -/
theorem foldlM_keeps {f : β → α → Except ε β} (inv : β → Prop)
    (keeps : ∀ {b a next}, inv b → f b a = .ok next → inv next) {as : List α} {b done : β}
    (start : inv b) (ok : as.foldlM f b = .ok done) : inv done := by
  induction as generalizing b with
  | nil =>
    cases ok
    exact start
  | cons a as ih =>
    rw [List.foldlM_cons, bind_eq_ok_iff] at ok
    obtain ⟨next, here, later⟩ := ok
    exact ih (keeps start here) later

/-- A run over a list that succeeds does so alike with a step that succeeds wherever the first does. -/
theorem foldlM_eq_ok_of_imp {f g : β → α → Except ε β}
    (each : ∀ {b a next}, f b a = .ok next → g b a = .ok next) {as : List α} {b done : β}
    (ok : as.foldlM f b = .ok done) : as.foldlM g b = .ok done := by
  induction as generalizing b with
  | nil => exact ok
  | cons a as ih =>
    rw [List.foldlM_cons, bind_eq_ok_iff] at ok ⊢
    obtain ⟨next, here, later⟩ := ok
    exact ⟨next, each here, ih later⟩

/-- A run over a list fails with the fault of the first element that has one, if the faults of the next
element do not depend on the state. -/
theorem foldlM_fails_iff {f : β → α → Except ε β} (inv : β → List α → Prop) (faulty : α → ε → Prop)
    (fails : ∀ {b a as e}, inv b (a :: as) → (f b a = .error e ↔ faulty a e))
    (keeps : ∀ {b a as next}, inv b (a :: as) → f b a = .ok next → inv next as)
    {b : β} {as : List α} (start : inv b as) {e : ε} :
    as.foldlM f b = .error e ↔
      ∃ before a after, as = before ++ a :: after ∧ (∀ other ∈ before, ∀ e, ¬faulty other e) ∧
        faulty a e := by
  induction as generalizing b with
  | nil =>
    constructor
    · intro failed
      cases failed
    · rintro ⟨before, a, after, shape, _⟩
      simp at shape
  | cons first rest ih =>
    rw [List.foldlM_cons, bind_eq_error_iff]
    constructor
    · rintro (failed | ⟨next, ok, failed⟩)
      · exact ⟨[], first, rest, rfl, by simp, (fails start).mp failed⟩
      · obtain ⟨before, a, after, rfl, others, fault⟩ := (ih (keeps start ok)).mp failed
        refine ⟨first :: before, a, after, rfl, ?_, fault⟩
        intro other member f
        rcases List.mem_cons.mp member with rfl | inBefore
        · intro faulty
          rw [(fails start).mpr faulty] at ok
          cases ok
        · exact others other inBefore f
    · rintro ⟨before, a, after, shape, others, fault⟩
      cases before with
      | nil =>
        cases shape
        exact .inl ((fails start).mpr fault)
      | cons other before =>
        cases shape
        cases ok : f b first with
        | error f => exact absurd ((fails start).mp ok) (others first List.mem_cons_self f)
        | ok next =>
          refine .inr ⟨next, rfl, (ih (keeps start ok)).mpr ⟨before, a, after, rfl, ?_, fault⟩⟩
          exact fun other member => others other (List.mem_cons_of_mem _ member)

/-- Two outcomes concur: both are faults that the first relation holds of, or both are values that the
second holds of. -/
inductive Concur {δ γ : Type} (S : ε → δ → Prop) (R : α → γ → Prop) : Except ε α → Except δ γ → Prop
  | error {e : ε} {f : δ} : S e f → Concur S R (.error e) (.error f)
  | ok {a : α} {c : γ} : R a c → Concur S R (.ok a) (.ok c)

namespace Concur

variable {δ γ η : Type} {S : ε → δ → Prop} {P : α → γ → Prop} {R : β → η → Prop}

theorem refl (x : Except ε α) : Concur Eq Eq x x := by
  cases x with
  | error e => exact .error rfl
  | ok a => exact .ok rfl

theorem bind {x : Except ε α} {y : Except δ γ} {f : α → Except ε β} {g : γ → Except δ η}
    (first : Concur S P x y) (next : ∀ a c, P a c → Concur S R (f a) (g c)) :
    Concur S R (x >>= f) (y >>= g) := by
  cases first with
  | error faults => exact .error faults
  | ok values => exact next _ _ values

theorem map {x : Except ε α} {y : Except δ γ} {f : α → β} {g : γ → η} (first : Concur S P x y)
    (next : ∀ a c, P a c → R (f a) (g c)) : Concur S R (x.map f) (y.map g) := by
  cases first with
  | error faults => exact .error faults
  | ok values => exact .ok (next _ _ values)

theorem mapM {f : α → Except ε β} {g : γ → Except δ η} (each : ∀ a c, P a c → Concur S R (f a) (g c))
    {as : List α} {cs : List γ} (alike : List.Forall₂ P as cs) :
    Concur S (List.Forall₂ R) (as.mapM f) (cs.mapM g) := by
  induction alike with
  | nil => exact .ok .nil
  | cons here _ ih =>
    rw [List.mapM_cons, List.mapM_cons]
    refine (each _ _ here).bind fun b d first => ih.bind fun bs ds later => ?_
    exact .ok (.cons first later)

/-- Runs over two lists whose steps concur on states that are related concur. -/
theorem foldlM {f : β → α → Except ε β} {g : η → γ → Except δ η}
    (each : ∀ b d a c, R b d → P a c → Concur S R (f b a) (g d c)) {as : List α} {cs : List γ}
    (alike : List.Forall₂ P as cs) {b : β} {d : η} (start : R b d) :
    Concur S R (as.foldlM f b) (cs.foldlM g d) := by
  induction alike generalizing b d with
  | nil => exact .ok start
  | cons here _ ih =>
    rw [List.foldlM_cons, List.foldlM_cons]
    exact (each _ _ _ _ start here).bind fun _ _ => ih

end Concur

end FilterQuery
