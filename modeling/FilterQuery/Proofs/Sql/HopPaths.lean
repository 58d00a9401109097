import FilterQuery.Proofs.Sql.Compile
import Mathlib.Algebra.Order.BigOperators.Group.List
import Mathlib.Algebra.Order.Group.Nat
import Mathlib.Data.List.Induction
import Mathlib.Data.List.Nodup
import Mathlib.Data.List.Perm.Subperm

/-!
The paths of the hops that conditions need. Main statements: the prefixes of several paths stand each
behind its own (`parentsFirst_prefixesOf`), and the hops of a path lie at its prefixes, if only without
the dots that those start with (`hopPaths_eq`).
-/
namespace FilterQuery

open Text Catalog Sql

theorem nodup_eraseDups {α : Type} [DecidableEq α] (as : List α) : as.eraseDups.Nodup := by
  induction as using List.reverseRecOn with
  | nil => exact List.nodup_nil
  | append_singleton as b ih =>
    rw [eraseDups_concat]
    by_cases old : b ∈ as
    · rw [if_pos old]
      exact ih
    · rw [if_neg old]
      have new : b ∉ as.eraseDups := fun member => old (List.mem_eraseDups.mp member)
      rw [← List.concat_eq_append]
      exact List.Nodup.concat new ih

/-- If a function that makes nothing longer leaves a list of distinct things as long as it was, it
leaves each of them as long as it was. -/
theorem sizes_kept {α : Type} [DecidableEq α] (size : α → Nat) (f : α → α)
    (shrinks : ∀ a, size (f a) ≤ size a) {as : List α}
    (same : (as.map f).eraseDups.map size = as.eraseDups.map size) : ∀ a ∈ as, size (f a) = size a := by
  intro a member
  by_contra differs
  -- The images without repetitions are some of those of the distinct things, and weigh no more.
  have inside : (as.map f).eraseDups ⊆ as.eraseDups.map f := by
    intro b
    simp only [List.mem_eraseDups, List.mem_map]
    exact id
  obtain ⟨among, sameAs, sub⟩ := List.subperm_of_subset (nodup_eraseDups _) inside
  have most : ((as.map f).eraseDups.map size).sum ≤ (as.eraseDups.map fun a => size (f a)).sum := by
    have sums := (sub.map size).sum_le_sum fun _ _ => Nat.zero_le _
    rw [(sameAs.map size).sum_eq] at sums
    simpa [Function.comp_def] using sums
  have less : (as.eraseDups.map fun a => size (f a)).sum < (as.eraseDups.map size).sum := by
    refine List.sum_lt_sum _ _ (fun b _ => shrinks b) ⟨a, List.mem_eraseDups.mpr member, ?_⟩
    exact lt_of_le_of_ne (shrinks a) differs
  rw [same] at most
  omega

namespace Text

theorem ParentsFirst.eraseDups {paths : List String} (parents : ParentsFirst paths) :
    ParentsFirst paths.eraseDups := by
  induction paths using List.reverseRecOn with
  | nil => exact parents
  | append_singleton paths path ih =>
    have initial : ParentsFirst paths := by
      intro before start last after split
      exact parents before start last (after ++ [path]) (by simp [split])
    rw [eraseDups_concat]
    by_cases old : path ∈ paths
    · rw [if_pos old]
      exact ih initial
    · rw [if_neg old]
      intro before start last after split
      rcases List.eq_nil_or_concat after with rfl | ⟨more, end', rfl⟩
      · obtain ⟨same, atEnd⟩ := List.append_inj' split rfl
        obtain rfl := List.singleton_inj.mp atEnd
        rw [← same, List.mem_eraseDups]
        exact parents paths start last [] rfl
      · have shape : paths.eraseDups ++ [path] = (before ++ (start ++ "." ++ last) :: more) ++ [end'] := by
          simpa using split
        exact ih initial before start last more (List.append_inj' shape rfl).1

/-- The proper prefixes of several paths, each where it first occurs. -/
def prefixesOf (paths : List String) : List String := (paths.flatMap properPrefixes).eraseDups

theorem mem_prefixesOf {paths : List String} {start : String} :
    start ∈ prefixesOf paths ↔ ∃ path ∈ paths, ∃ rest, path = start ++ "." ++ rest := by
  simp only [prefixesOf, List.mem_eraseDups, List.mem_flatMap, mem_properPrefixes]

theorem parentsFirst_prefixesOf (paths : List String) : ParentsFirst (prefixesOf paths) :=
  (ParentsFirst.flatMap fun path _ => parentsFirst_properPrefixes path).eraseDups

/-- A path without the dots that it starts with. -/
def withoutLead (path : String) : String := String.ofList (path.toList.dropWhile (· == '.'))

/-- The path starts with two segments of which the first has no characters, and goes on. -/
def NamelessStart (path : String) : Prop := ∃ second rest, path = "." ++ second ++ "." ++ rest

theorem withoutLead_eq_self_iff {path : String} :
    withoutLead path = path ↔ ¬∃ rest, path = "." ++ rest := by
  have dot : ".".toList = ['.'] := by decide
  constructor
  · rintro same ⟨rest, rfl⟩
    have sizes := congrArg (·.toList.length) same
    have shorter := (List.dropWhile_sublist (l := rest.toList) (· == '.')).length_le
    simp [withoutLead, dot] at sizes
    omega
  · intro notDot
    apply String.toList_injective
    cases shape : path.toList with
    | nil => simp [withoutLead, shape]
    | cons c cs =>
      have other : c ≠ '.' := by
        rintro rfl
        exact notDot ⟨String.ofList cs, String.toList_injective (by simp [shape, dot])⟩
      simp [withoutLead, shape, other]

/-- Just after a nameless start a prefix of a path starts with a dot. -/
theorem namelessStart_iff {path : String} :
    NamelessStart path ↔ ∃ start ∈ properPrefixes path, withoutLead start ≠ start := by
  simp only [mem_properPrefixes, ne_eq, withoutLead_eq_self_iff, not_not]
  constructor
  · rintro ⟨second, rest, rfl⟩
    exact ⟨"." ++ second, ⟨rest, rfl⟩, second, rfl⟩
  · rintro ⟨_, ⟨rest, rfl⟩, second, rfl⟩
    exact ⟨second, rest, rfl⟩

instance (path : String) : Decidable (NamelessStart path) := decidable_of_iff _ namelessStart_iff.symm

end Text

namespace Sql

theorem extendPath_withoutLead (before : String) {name : String} (dotless : '.' ∉ name.toList) :
    extendPath (withoutLead before) name = withoutLead (before ++ "." ++ name) := by
  have dot : ".".toList = ['.'] := by decide
  have notDot : name.toList.dropWhile (· == '.') = name.toList := by
    cases shape : name.toList with
    | nil => rfl
    | cons c cs =>
      have other : c ≠ '.' := by
        rintro rfl
        exact dotless (by simp [shape])
      simp [other]
  apply String.toList_injective
  cases lead : before.toList.dropWhile (· == '.') with
  | nil => simp [extendPath, withoutLead, lead, dot, List.dropWhile_append, notDot]
  | cons c cs => simp [extendPath, withoutLead, lead, dot, List.dropWhile_append]

/-- The hops of a path have the prefixes of the path for their paths, but for the dots in front. -/
theorem hopPathsFrom_eq (start : String) {names : List String} {field : String}
    (dotless : ∀ name ∈ names ++ [field], '.' ∉ name.toList) :
    hopPathsFrom (withoutLead start) names =
      (properPrefixes (joinDots (names ++ [field]))).map fun q => withoutLead (start ++ "." ++ q) := by
  induction names generalizing start with
  | nil =>
    have last := properPrefixes_of_dotless (dotless field (by simp))
    simp [hopPathsFrom, joinDots, last]
  | cons name names ih =>
    have here : '.' ∉ name.toList := dotless name (by simp)
    have later := ih (start ++ "." ++ name) fun n member => dotless n (List.mem_cons_of_mem _ member)
    rw [List.cons_append, joinDots_cons (by simp), properPrefixes_append_dot,
      properPrefixes_of_dotless here, hopPathsFrom, extendPath_withoutLead start here, later]
    simp [Function.comp_def, String.append_assoc]

theorem withoutLead_dot (path : String) : withoutLead ("." ++ path) = withoutLead path := by
  have dot : ".".toList = ['.'] := by decide
  simp [withoutLead, dot]

theorem hopPaths_eq (path : String) : hopPaths path = (properPrefixes path).map withoutLead := by
  have nonempty := segments_ne_nil path
  have shape := List.dropLast_append_getLast nonempty
  have dotless : ∀ name ∈ (segments path).dropLast ++ [(segments path).getLast nonempty],
      '.' ∉ name.toList := by
    rw [shape]
    exact fun name => dotless_of_mem_segments
  have hops := hopPathsFrom_eq "" dotless
  rw [shape, joinDots_segments] at hops
  have none : withoutLead "" = "" := by decide
  rw [none] at hops
  rw [hopPaths, hops]
  exact List.map_congr_left fun q _ => withoutLead_dot q

end Sql

end FilterQuery
