import FilterQuery.Proofs.Text.Blank
import FilterQuery.Text.Dotted
import Mathlib.Data.List.TakeWhile

/-!
Dotted paths: their segments, their last segment, and the prefixes that end before one of their
dots. Main statements: the segments of a path determine it (`joinDots_segments`), and its proper
prefixes are the texts that it goes on after with a dot (`mem_properPrefixes`).
-/
namespace FilterQuery.Text

section Cut

theorem cutAtFirstDot?_append {before : List Char} (dotless : '.' ∉ before) (after : List Char) :
    cutAtFirstDot? (before ++ '.' :: after) = some (before, after) := by
  have free : ∀ c ∈ before, (c != '.') = true := by
    intro c member
    simp only [bne_iff_ne, ne_eq]
    rintro rfl
    exact dotless member
  simp [cutAtFirstDot?, List.dropWhile_append_of_pos free, List.takeWhile_append_of_pos free]

theorem cutAtFirstDot?_eq_none_iff {cs : List Char} : cutAtFirstDot? cs = none ↔ '.' ∉ cs := by
  constructor
  · intro cut member
    obtain ⟨before, after, shape, dotless⟩ := List.eq_append_cons_of_mem member
    rw [shape, cutAtFirstDot?_append dotless] at cut
    cases cut
  · intro dotless
    have nothing : cs.dropWhile (· != '.') = [] := by
      rw [List.dropWhile_eq_nil_iff]
      intro c member
      simp only [bne_iff_ne, ne_eq]
      rintro rfl
      exact dotless member
    simp [cutAtFirstDot?, nothing]

theorem cutAtFirstDot?_eq_some_iff {cs before after : List Char} :
    cutAtFirstDot? cs = some (before, after) ↔ cs = before ++ '.' :: after ∧ '.' ∉ before := by
  constructor
  · intro cut
    have member : '.' ∈ cs := by
      by_contra dotless
      rw [cutAtFirstDot?_eq_none_iff.mpr dotless] at cut
      cases cut
    obtain ⟨head, rest, shape, dotless⟩ := List.eq_append_cons_of_mem member
    rw [shape, cutAtFirstDot?_append dotless] at cut
    cases cut
    exact ⟨shape, dotless⟩
  · rintro ⟨rfl, dotless⟩
    exact cutAtFirstDot?_append dotless after

end Cut

theorem splitLast?_eq_none_iff {path : String} : splitLast? path = none ↔ '.' ∉ path.toList := by
  simp [splitLast?, cutAtLastDot?, cutAtFirstDot?_eq_none_iff]

theorem splitLast?_eq_some_iff {path init last : String} :
    splitLast? path = some (init, last) ↔ path = init ++ "." ++ last ∧ '.' ∉ last.toList := by
  simp only [splitLast?, cutAtLastDot?, Option.map_eq_some_iff, Prod.mk.injEq, Prod.exists]
  constructor
  · rintro ⟨_, _, ⟨tail, front, cut, rfl, rfl⟩, rfl, rfl⟩
    obtain ⟨shape, dotless⟩ := cutAtFirstDot?_eq_some_iff.mp cut
    have text : path.toList = front.reverse ++ '.' :: tail.reverse := by
      simpa using congrArg List.reverse shape
    refine ⟨?_, by simpa using dotless⟩
    apply String.toList_injective
    simp [text]
  · rintro ⟨rfl, dotless⟩
    refine ⟨init.toList, last.toList, ⟨last.toList.reverse, init.toList.reverse, ?_, ?_, ?_⟩, ?_, ?_⟩
    · rw [cutAtFirstDot?_eq_some_iff]
      exact ⟨by simp, by simpa using dotless⟩
    all_goals simp

theorem splitHead?_eq_none_iff {path : String} : splitHead? path = none ↔ '.' ∉ path.toList := by
  simp [splitHead?, cutAtFirstDot?_eq_none_iff]

theorem splitHead?_eq_some_iff {path head rest : String} :
    splitHead? path = some (head, rest) ↔ path = head ++ "." ++ rest ∧ '.' ∉ head.toList := by
  simp only [splitHead?, Option.map_eq_some_iff, Prod.mk.injEq, Prod.exists]
  constructor
  · rintro ⟨_, _, cut, rfl, rfl⟩
    obtain ⟨shape, dotless⟩ := cutAtFirstDot?_eq_some_iff.mp cut
    refine ⟨?_, by simpa using dotless⟩
    apply String.toList_injective
    simp [shape]
  · rintro ⟨rfl, dotless⟩
    refine ⟨head.toList, rest.toList, ?_, by simp, by simp⟩
    rw [cutAtFirstDot?_eq_some_iff]
    exact ⟨by simp, dotless⟩

section Segments

theorem segments_append_dot (before after : String) :
    segments (before ++ "." ++ after) = segments before ++ segments after := by
  simp [segments, pieces_append_cons]

theorem segments_of_dotless {path : String} (dotless : '.' ∉ path.toList) : segments path = [path] := by
  have single : pieces (· == '.') path.toList = [path.toList] := by
    apply pieces_eq_singleton
    intro c member
    simp only [beq_eq_false_iff_ne, ne_eq]
    rintro rfl
    exact dotless member
  simp [segments, single]

theorem segments_ne_nil (path : String) : segments path ≠ [] := by
  simp [segments, pieces_ne_nil]

theorem dotless_of_mem_segments {path segment : String} (member : segment ∈ segments path) :
    '.' ∉ segment.toList := by
  obtain ⟨piece, inPieces, rfl⟩ := List.mem_map.mp member
  intro dot
  have free := separates_eq_false_of_mem_pieces inPieces (by simpa using dot)
  simp at free

theorem joinDots_cons {later : List String} (nonempty : later ≠ []) (segment : String) :
    joinDots (segment :: later) = segment ++ "." ++ joinDots later := by
  cases later with
  | nil => exact absurd rfl nonempty
  | cons => rfl

theorem joinDots_append {before after : List String} (first : before ≠ []) (second : after ≠ []) :
    joinDots (before ++ after) = joinDots before ++ "." ++ joinDots after := by
  induction before with
  | nil => exact absurd rfl first
  | cons segment before ih =>
    cases before with
    | nil => exact joinDots_cons second segment
    | cons next before =>
      have inner := ih (List.cons_ne_nil _ _)
      rw [List.cons_append, joinDots_cons (by simp), inner, joinDots_cons (List.cons_ne_nil _ _)]
      simp [String.append_assoc]

theorem segments_joinDots {names : List String} (nonempty : names ≠ [])
    (dotless : ∀ name ∈ names, '.' ∉ name.toList) : segments (joinDots names) = names := by
  induction names with
  | nil => exact absurd rfl nonempty
  | cons name names ih =>
    have here := segments_of_dotless (dotless name List.mem_cons_self)
    cases names with
    | nil => exact here
    | cons next names =>
      have later := ih (List.cons_ne_nil _ _) fun n member => dotless n (List.mem_cons_of_mem _ member)
      rw [joinDots_cons (List.cons_ne_nil _ _), segments_append_dot, here, later]
      rfl

theorem joinDots_segments (path : String) : joinDots (segments path) = path := by
  generalize size : path.toList.length = n
  induction n using Nat.strongRecOn generalizing path with
  | _ n ih =>
    cases cut : splitLast? path with
    | none => rw [segments_of_dotless (splitLast?_eq_none_iff.mp cut)]; rfl
    | some parts =>
      obtain ⟨init, last⟩ := parts
      obtain ⟨rfl, dotless⟩ := splitLast?_eq_some_iff.mp cut
      have shorter : init.toList.length < n := by
        simp only [String.toList_append, List.length_append] at size
        have dot : ".".toList.length = 1 := by decide
        omega
      rw [segments_append_dot, segments_of_dotless dotless,
        joinDots_append (segments_ne_nil init) (List.cons_ne_nil _ _), ih _ shorter init rfl]
      rfl

theorem joinDots_eq_intercalate (names : List String) : joinDots names = ".".intercalate names := by
  induction names with
  | nil => rw [joinDots, String.intercalate_nil]
  | cons name later ih =>
    cases later with
    | nil => rw [joinDots, String.intercalate_singleton]
    | cons next later => rw [joinDots_cons (List.cons_ne_nil _ _), String.intercalate_cons_cons, ih]

end Segments

section Undotted

theorem undotted_of_dotless {segment : String} (dotless : '.' ∉ segment.toList) :
    undotted segment = segment := by
  have kept : segment.toList.map (fun c => if c == '.' then '_' else c) = segment.toList.map id := by
    apply List.map_congr_left
    intro c member
    have other : c ≠ '.' := by
      rintro rfl
      exact dotless member
    simp [other]
  rw [undotted, kept, List.map_id, String.ofList_toList]

theorem undotted_append_dot (before after : String) :
    undotted (before ++ "." ++ after) = undotted before ++ "_" ++ undotted after := by
  apply String.toList_injective
  simp [undotted]

/-- The name of a path has underscores between the segments. -/
theorem undotted_joinDots {names : List String} (dotless : ∀ name ∈ names, '.' ∉ name.toList) :
    undotted (joinDots names) = "_".intercalate names := by
  induction names with
  | nil => rfl
  | cons name later ih =>
    have here := undotted_of_dotless (dotless name List.mem_cons_self)
    cases later with
    | nil => rw [joinDots, here, String.intercalate_singleton]
    | cons next later =>
      rw [joinDots_cons (List.cons_ne_nil _ _), undotted_append_dot, here,
        ih fun n member => dotless n (List.mem_cons_of_mem _ member), String.intercalate_cons_cons]

theorem undotted_eq_intercalate (path : String) : undotted path = "_".intercalate (segments path) := by
  rw [← undotted_joinDots fun name => dotless_of_mem_segments, joinDots_segments]

end Undotted

section Prefixes

/-- What stands before each dot of a text, from the first dot to the last. -/
def beforeDots : List Char → List (List Char)
  | [] => []
  | c :: cs => (if c = '.' then [[]] else []) ++ (beforeDots cs).map (c :: ·)

/-- The proper prefixes of a dotted path that consist of whole segments, from the shortest. -/
def properPrefixes (path : String) : List String := (beforeDots path.toList).map String.ofList

theorem beforeDots_of_dotless {cs : List Char} (dotless : '.' ∉ cs) : beforeDots cs = [] := by
  induction cs with
  | nil => rfl
  | cons c cs ih =>
    simp only [List.mem_cons, not_or] at dotless
    obtain ⟨notHere, notLater⟩ := dotless
    simp [beforeDots, Ne.symm notHere, ih notLater]

theorem beforeDots_append (before after : List Char) :
    beforeDots (before ++ after) = beforeDots before ++ (beforeDots after).map (before ++ ·) := by
  induction before with
  | nil => simp [beforeDots]
  | cons c before ih => simp [beforeDots, ih]

theorem mem_beforeDots {cs front : List Char} :
    front ∈ beforeDots cs ↔ ∃ rest, cs = front ++ '.' :: rest := by
  induction cs generalizing front with
  | nil => simp [beforeDots]
  | cons c cs ih =>
    simp only [beforeDots, List.mem_append, List.mem_map, ih]
    constructor
    · rintro (here | ⟨later, ⟨rest, rfl⟩, rfl⟩)
      · split at here
        · next dot =>
          simp only [List.mem_singleton] at here
          exact ⟨cs, by simp [here, dot]⟩
        · simp at here
      · exact ⟨rest, rfl⟩
    · rintro ⟨rest, shape⟩
      cases front with
      | nil =>
        cases shape
        exact .inl (by simp)
      | cons d front =>
        cases shape
        exact .inr ⟨front, ⟨rest, rfl⟩, rfl⟩

/-- The proper prefixes of a path are the texts after which it goes on with a dot. -/
theorem mem_properPrefixes {path start : String} :
    start ∈ properPrefixes path ↔ ∃ rest, path = start ++ "." ++ rest := by
  simp only [properPrefixes, List.mem_map, mem_beforeDots]
  constructor
  · rintro ⟨front, ⟨rest, shape⟩, rfl⟩
    refine ⟨String.ofList rest, String.toList_injective ?_⟩
    simp [shape]
  · rintro ⟨rest, rfl⟩
    exact ⟨start.toList, ⟨rest.toList, by simp⟩, by simp⟩

theorem properPrefixes_of_dotless {path : String} (dotless : '.' ∉ path.toList) :
    properPrefixes path = [] := by
  simp [properPrefixes, beforeDots_of_dotless dotless]

/-- Of two paths with a dot between them, the prefixes are those of the first, the first itself, and
the first with those of the second. -/
theorem properPrefixes_append_dot (before after : String) :
    properPrefixes (before ++ "." ++ after) =
      properPrefixes before ++ before :: (properPrefixes after).map (before ++ "." ++ ·) := by
  have dot : beforeDots ".".toList = [[]] := by decide
  simp only [properPrefixes, String.toList_append, beforeDots_append, dot]
  simp [Function.comp_def, String.append_assoc]

theorem beforeDots_increasing (cs : List Char) :
    (beforeDots cs).Pairwise fun shorter longer => shorter.length < longer.length := by
  induction cs with
  | nil => exact .nil
  | cons c cs ih =>
    have later : ((beforeDots cs).map (c :: ·)).Pairwise fun a b => a.length < b.length := by
      rw [List.pairwise_map]
      exact ih.imp fun shorter => by simpa using shorter
    by_cases dot : c = '.'
    · rw [beforeDots, if_pos dot]
      refine List.pairwise_cons.mpr ⟨fun front member => ?_, later⟩
      obtain ⟨rest, _, rfl⟩ := List.mem_map.mp member
      exact Nat.succ_pos _
    · rw [beforeDots, if_neg dot]
      exact later

/-- Each path stands behind the path that it goes on from by its last segments. -/
def ParentsFirst (paths : List String) : Prop :=
  ∀ before start last after, paths = before ++ (start ++ "." ++ last) :: after → start ∈ before

theorem parentsFirst_properPrefixes (path : String) : ParentsFirst (properPrefixes path) := by
  intro before start last after split
  have member : start ++ "." ++ last ∈ properPrefixes path := by simp [split]
  obtain ⟨rest, shape⟩ := mem_properPrefixes.mp member
  have isPrefix : start ∈ before ++ (start ++ "." ++ last) :: after := by
    rw [← split, mem_properPrefixes]
    exact ⟨last ++ "." ++ rest, by simp [shape, String.append_assoc]⟩
  have increasing : (properPrefixes path).Pairwise fun a b => a.toList.length < b.toList.length := by
    rw [properPrefixes, List.pairwise_map]
    exact (beforeDots_increasing _).imp fun shorter => by simpa using shorter
  rw [split, List.pairwise_append] at increasing
  rcases List.mem_append.mp isPrefix with early | late
  · exact early
  · exfalso
    rcases List.mem_cons.mp late with same | behind
    · have sizes := congrArg (·.toList.length) same
      simp only [String.toList_append, List.length_append] at sizes
      have dot : ".".toList.length = 1 := by decide
      omega
    · have longer := (List.pairwise_cons.mp increasing.2.1).1 start behind
      simp only [String.toList_append, List.length_append] at longer
      omega

theorem ParentsFirst.append {first second : List String} (one : ParentsFirst first)
    (other : ParentsFirst second) : ParentsFirst (first ++ second) := by
  intro before start last after split
  rcases List.append_eq_append_iff.mp split with ⟨more, rfl, rest⟩ | ⟨more, rfl, rest⟩
  · exact List.mem_append_right _ (other more start last after rest)
  · cases more with
    | nil => exact absurd (other [] start last after rest.symm) List.not_mem_nil
    | cons path more =>
      obtain ⟨rfl, _⟩ := List.cons_eq_cons.mp rest
      exact one before start last more rfl

theorem ParentsFirst.flatMap {paths : List String} {f : String → List String}
    (each : ∀ path ∈ paths, ParentsFirst (f path)) : ParentsFirst (paths.flatMap f) := by
  induction paths with
  | nil =>
    intro before start last after split
    simp at split
  | cons path paths ih =>
    rw [List.flatMap_cons]
    exact (each path List.mem_cons_self).append
      (ih fun other member => each other (List.mem_cons_of_mem _ member))

end Prefixes

end FilterQuery.Text
