import FilterQuery.Proofs.Outcome
import FilterQuery.Proofs.Session.Commands
import Mathlib.Data.List.TakeWhile

/-!
Sessions line by line. A command that is not carried out and an expression leave the session as it is
(`handle_eq_self`), so that a session goes the same way without them. Main statement: what is shown for
each of the other lines is the same too (`run_lasting`).
-/
namespace FilterQuery

open Text

/-- What a line says, without what was taken back of it and the blanks at its ends. -/
def Command.said (line : String) : String := String.ofList (trim (Command.kept line.toList))

open Command

/-- A line that has been answered: the session that it was said to, and what was shown. -/
structure Turn where
  session : Session
  line : String
  shown : List String
deriving DecidableEq

namespace Session

/-- The line leaves the session. -/
def leaves (line : String) : Bool := said line = "quit" || said line = "exit"

/-- The turns of a session with its lines, up to the first line that leaves it. -/
def turns (s : Session) : List String → List Turn
  | [] => []
  | line :: lines =>
    match s.respond line with
    | none => []
    | some (next, shown) => ⟨s, line, shown⟩ :: next.turns lines

/-- Whether the session can do what it is asked for. -/
def obeys (s : Session) : Command → Bool
  | .help | .showAliases | .clearAliases => true
  | .register name path => (s.aliases.register name path).isOk
  | .setMain name => (s.aliases.setMain name).isOk
  | .setRoot name => s.config.entities.contains name
  | .evaluate expression =>
    match Filter.parse expression with
    | .ok filter => (s.compiler.compile s.root filter).isOk
    | .error _ => false

def KnowsRoot (s : Session) : Prop := s.config.entities.contains s.root = true

end Session

def Turn.command (t : Turn) : Command := ofLine (said t.line)

/-- Whether the line is a command that is carried out: it is not blank, nor an expression, nor is
anything wrong with it. -/
def Turn.lasts (t : Turn) : Bool :=
  said t.line != "" && t.command.form?.isSome && t.session.obeys t.command

namespace Session

/-- The lines that are commands which are carried out. -/
def lasting (s : Session) (lines : List String) : List String :=
  ((s.turns lines).filter Turn.lasts).map Turn.line

section Step

variable {s : Session} {command : Command}

/-- The last line that is shown is a complaint. -/
def Complains (shown : List String) : Prop := ∃ message, shown.getLast? = some (complaint message)

theorem not_complains {shown : List String} {last : String} (atEnd : shown.getLast? = some last)
    {c : Char} (start : last.toList.head? = some c) (plain : c ≠ '✗') : ¬Complains shown := by
  rintro ⟨message, complained⟩
  obtain rfl := Option.some.inj (atEnd.symm.trans complained)
  have mark : (complaint message).toList.head? = some '✗' := by simp [complaint]
  exact plain (Option.some.inj (start.symm.trans mark))

theorem not_complains_showAliases (s : Session) : ¬Complains s.showAliases := by
  rcases List.eq_nil_or_concat s.aliases.aliases.toList with empty | ⟨others, ⟨name, path⟩, shape⟩
  · have atEnd : s.showAliases.getLast? = some ("主实体别名: " ++ s.aliases.main.getD "(未设置)") := by
      simp [showAliases, empty]
    exact not_complains atEnd (c := '主') (by simp) (by decide)
  · have atEnd : s.showAliases.getLast? = some ("  " ++ name ++ " -> " ++ path) := by
      simp [showAliases, shape, List.getLast?_cons]
    exact not_complains atEnd (c := ' ') (by simp) (by decide)

theorem not_complains_of_compiled {s : Session} {expression : String} {filter : Filter} {compiled : Compiled}
    (parsed : Filter.parse expression = .ok filter)
    (ok : s.compiler.compile s.root filter = .ok compiled) : ¬Complains (s.evaluate expression) := by
  have atEnd : (s.evaluate expression).getLast? = some compiled.statement.render := by
    simp [evaluate, parsed, ok, List.getLast?_cons]
  have select : "SELECT * FROM ".toList.head? = some 'S' := by decide
  have text : compiled.statement.render.toList = compiled.statement.renderChars := String.toList_ofList
  have start : compiled.statement.render.toList.head? = some 'S' := by
    rw [text]
    unfold Sql.Statement.renderChars
    simp only [List.append_assoc]
    rw [List.head?_append, select, Option.some_or]
  exact not_complains atEnd start (by decide)

theorem not_complains_done {line : String} (start : line.toList.head? = some '✅') : ¬Complains [line] :=
  not_complains rfl start (by decide)

theorem complains_evaluate_iff (s : Session) (expression : String) :
    Complains (s.evaluate expression) ↔ s.obeys (.evaluate expression) = false := by
  simp only [obeys]
  cases parsed : Filter.parse expression with
  | error fault =>
    have complains : Complains (s.evaluate expression) :=
      ⟨fault.message s.config.format, by simp [evaluate, parsed, explain]⟩
    simp [complains]
  | ok filter =>
    cases result : s.compiler.compile s.root filter with
    | error fault =>
      have complains : Complains (s.evaluate expression) :=
        ⟨fault.message s.config.format, by simp [evaluate, parsed, result, explain]⟩
      simp [complains, result]
    | ok compiled =>
      have fine := not_complains_of_compiled parsed result
      simp [fine, result]

/-- There is a complaint exactly if the session cannot do what it is asked for. -/
theorem complains_iff (s : Session) (command : Command) :
    Complains (s.handle command).2 ↔ s.obeys command = false := by
  cases command with
  | help =>
    have fine : ¬Complains helpLines := not_complains (c := '其') rfl (by decide) (by decide)
    simp [handle, obeys, fine]
  | register name path =>
    cases result : s.aliases.register name path with
    | ok aliases =>
      have fine : ¬Complains ["✅ " ++ name ++ " -> " ++ path] := not_complains_done (by simp)
      simp [handle, obeys, result, fine]
    | error fault =>
      have complains : Complains [s.explain fault] := ⟨_, rfl⟩
      simp [handle, obeys, result, complains]
  | setMain name =>
    cases result : s.aliases.setMain name with
    | ok aliases =>
      have fine : ¬Complains ["✅ 主实体别名: " ++ name] := not_complains_done (by simp)
      simp [handle, obeys, result, fine]
    | error fault =>
      have complains : Complains [s.explain fault] := ⟨_, rfl⟩
      simp [handle, obeys, result, complains]
  | showAliases => simp [handle, obeys, not_complains_showAliases s]
  | clearAliases =>
    have fine : ¬Complains ["✅ 已清空别名"] := not_complains_done (by decide)
    simp [handle, obeys, fine]
  | setRoot name =>
    by_cases known : s.config.entities.contains name = true
    · have fine : ¬Complains ["✅ 根实体: " ++ name] := not_complains_done (by simp)
      simp [handle, obeys, known, fine]
    · have complains : Complains [complaint ("未知实体: " ++ name)] := ⟨_, rfl⟩
      simp [handle, obeys, known, complains]
  | evaluate expression => exact complains_evaluate_iff s expression

/-- A session is changed only by commands that are carried out, in its aliases or in its root. -/
theorem handle_cases (s : Session) (command : Command) : (s.handle command).1 = s ∨
    command.form?.isSome ∧ s.obeys command = true ∧
      ((∃ aliases, (s.handle command).1 = { s with aliases := aliases }) ∨
        ∃ name, command = .setRoot name ∧ (s.handle command).1 = { s with root := name }) := by
  cases command with
  | help | showAliases | evaluate => exact .inl rfl
  | clearAliases => exact .inr ⟨rfl, rfl, .inl ⟨_, rfl⟩⟩
  | register name path =>
    cases result : s.aliases.register name path with
    | ok aliases => exact .inr ⟨rfl, by simp [obeys, result], .inl ⟨aliases, by simp [handle, result]⟩⟩
    | error fault => exact .inl (by simp [handle, result])
  | setMain name =>
    cases result : s.aliases.setMain name with
    | ok aliases => exact .inr ⟨rfl, by simp [obeys, result], .inl ⟨aliases, by simp [handle, result]⟩⟩
    | error fault => exact .inl (by simp [handle, result])
  | setRoot name =>
    by_cases known : s.config.entities.contains name = true
    · exact .inr ⟨rfl, known, .inr ⟨name, rfl, by simp [handle, known]⟩⟩
    · exact .inl (by simp [handle, known])

/-- An expression, and a command that is not carried out, leave the session as it is. -/
theorem handle_eq_self (idle : command.form? = none ∨ s.obeys command = false) :
    (s.handle command).1 = s := by
  rcases handle_cases s command with same | ⟨known, obeyed, _⟩
  · exact same
  · rcases idle with expression | refused
    · rw [expression] at known
      cases known
    · rw [refused] at obeyed
      cases obeyed

theorem handle_config (s : Session) (command : Command) : (s.handle command).1.config = s.config := by
  rcases handle_cases s command with same | ⟨_, _, ⟨aliases, same⟩ | ⟨name, _, same⟩⟩ <;> rw [same]

theorem KnowsRoot.handle (knows : s.KnowsRoot) (command : Command) : (s.handle command).1.KnowsRoot := by
  rcases handle_cases s command with same | ⟨_, obeyed, ⟨aliases, same⟩ | ⟨name, rfl, same⟩⟩
  · rwa [same]
  · rw [same]
    exact knows
  · rw [same]
    exact obeyed

theorem knowsRoot_of_setRoot {name : String} (obeyed : s.obeys (.setRoot name) = true) :
    (s.handle (.setRoot name)).1.KnowsRoot := by
  have known : s.config.entities.contains name = true := obeyed
  simp [handle, known, KnowsRoot]

end Step

section Respond

variable {s next : Session} {line : String} {shown : List String}

theorem respond_eq (s : Session) (line : String) : s.respond line =
    if leaves line then none
    else if said line = "" then some (s, [])
    else some (s.handle (ofLine (said line))) := by
  unfold respond leaves
  change (if (said line).isEmpty then some (s, []) else if said line = "quit" || said line = "exit" then none
    else some (s.handle (ofLine (said line)))) = _
  by_cases blank : said line = "" <;> simp [blank]

theorem respond_eq_none_iff : s.respond line = none ↔ leaves line = true := by
  rw [respond_eq]
  split_ifs with gone blank <;> simp [gone]

/-- A line that is answered says nothing, or it is handled. -/
theorem respond_cases (answer : s.respond line = some (next, shown)) :
    said line = "" ∧ next = s ∧ shown = [] ∨
      said line ≠ "" ∧ s.handle (ofLine (said line)) = (next, shown) := by
  rw [respond_eq] at answer
  split_ifs at answer with gone blank
  · cases answer
    exact .inl ⟨blank, rfl, rfl⟩
  · exact .inr ⟨blank, Option.some.inj answer⟩

/-- The session is left as it is by every line but the commands that are carried out. -/
theorem eq_of_not_lasts (answer : s.respond line = some (next, shown))
    (idle : Turn.lasts ⟨s, line, shown⟩ = false) : next = s := by
  rcases respond_cases answer with ⟨_, same, _⟩ | ⟨nonblank, handled⟩
  · exact same
  · have left : (ofLine (said line)).form? = none ∨ s.obeys (ofLine (said line)) = false := by
      simpa [Turn.lasts, Turn.command, nonblank, imp_iff_not_or] using idle
    have same := handle_eq_self left
    rwa [handled] at same

theorem respond_config (answer : s.respond line = some (next, shown)) : next.config = s.config := by
  rcases respond_cases answer with ⟨_, rfl, _⟩ | ⟨_, handled⟩
  · rfl
  · have same := handle_config s (ofLine (said line))
    rwa [handled] at same

theorem KnowsRoot.respond (knows : s.KnowsRoot) (answer : s.respond line = some (next, shown)) :
    next.KnowsRoot := by
  rcases respond_cases answer with ⟨_, rfl, _⟩ | ⟨_, handled⟩
  · exact knows
  · have kept := knows.handle (ofLine (said line))
    rwa [handled] at kept

theorem knowsRoot_of_lasts {name : String} (answer : s.respond line = some (next, shown))
    (lasts : Turn.lasts ⟨s, line, shown⟩ = true) (isRoot : ofLine (said line) = .setRoot name) :
    next.KnowsRoot := by
  simp only [Turn.lasts, Turn.command, isRoot, Bool.and_eq_true, bne_iff_ne] at lasts
  obtain ⟨⟨nonblank, _⟩, obeyed⟩ := lasts
  rcases respond_cases answer with ⟨blank, _⟩ | ⟨_, handled⟩
  · exact absurd blank nonblank
  · have known := knowsRoot_of_setRoot obeyed
    rwa [← isRoot, handled] at known

end Respond

section Run

variable {s next : Session} {line : String} {lines shown : List String} {t : Turn} {before after : List Turn}

theorem turns_cons (answer : s.respond line = some (next, shown)) :
    s.turns (line :: lines) = ⟨s, line, shown⟩ :: next.turns lines := by
  rw [turns, answer]

theorem run_cons (answer : s.respond line = some (next, shown)) :
    s.run (line :: lines) = ((next.run lines).1, shown ++ (next.run lines).2) := by
  rw [run, answer]

theorem exists_of_turns_eq_cons (shape : s.turns lines = t :: after) : ∃ next rest,
    lines = t.line :: rest ∧ t.session = s ∧ s.respond t.line = some (next, t.shown) ∧
      next.turns rest = after := by
  cases lines with
  | nil => cases shape
  | cons line rest =>
    cases answer : s.respond line with
    | none =>
      rw [turns, answer] at shape
      cases shape
    | some result =>
      obtain ⟨next, shown⟩ := result
      rw [turns_cons answer] at shape
      cases shape
      exact ⟨next, rest, rfl, rfl, answer, rfl⟩

/-- Each turn is one of the session that the lines before it lead to. -/
theorem turns_split (split : s.turns lines = before ++ t :: after) :
    s.turns (before.map Turn.line) = before ∧ (s.run (before.map Turn.line)).1 = t.session ∧
      ∃ next rest, t.session.respond t.line = some (next, t.shown) ∧ next.turns rest = after ∧
        (next.run rest).1 = (s.run lines).1 := by
  induction before generalizing s lines with
  | nil =>
    obtain ⟨next, rest, rfl, rfl, answer, later⟩ := exists_of_turns_eq_cons split
    exact ⟨rfl, rfl, next, rest, answer, later, by rw [run_cons answer]⟩
  | cons first before ih =>
    obtain ⟨next, rest, rfl, rfl, answer, later⟩ := exists_of_turns_eq_cons split
    obtain ⟨earlier, reached, further⟩ := ih later
    rw [List.map_cons, turns_cons answer, run_cons answer, run_cons answer, earlier]
    exact ⟨rfl, reached, further⟩

/-- What every answer keeps holds in all turns and at the end. -/
theorem run_invariant (holds : Session → Prop)
    (keeps : ∀ {s next : Session} {line : String} {shown : List String},
      holds s → s.respond line = some (next, shown) → holds next)
    (start : holds s) (lines : List String) :
    (∀ t ∈ s.turns lines, holds t.session) ∧ holds (s.run lines).1 := by
  fun_induction turns s lines with
  | case1 s => exact ⟨fun _ none => absurd none List.not_mem_nil, start⟩
  | case2 s line lines gone =>
    rw [run, gone]
    exact ⟨fun _ none => absurd none List.not_mem_nil, start⟩
  | case3 s line lines next shown answer ih =>
    obtain ⟨later, final⟩ := ih (keeps start answer)
    rw [run_cons answer]
    exact ⟨List.forall_mem_cons.mpr ⟨start, later⟩, final⟩

theorem map_line_turns (s : Session) (lines : List String) :
    (s.turns lines).map Turn.line = lines.takeWhile (!leaves ·) := by
  fun_induction turns s lines with
  | case1 s => rfl
  | case2 s line lines gone => simp [respond_eq_none_iff.mp gone]
  | case3 s line lines next shown answer ih =>
    have stays : leaves line = false := by
      rw [← Bool.not_eq_true, ← respond_eq_none_iff, answer]
      exact Option.some_ne_none _
    simp [stays, ih]

theorem run_shown (s : Session) (lines : List String) :
    (s.run lines).2 = (s.turns lines).flatMap Turn.shown := by
  fun_induction turns s lines with
  | case1 s => rfl
  | case2 s line lines gone =>
    rw [run, gone]
    rfl
  | case3 s line lines next shown answer ih => rw [run_cons answer, List.flatMap_cons, ih]

theorem lasting_cons (answer : s.respond line = some (next, shown)) : s.lasting (line :: lines) =
    if Turn.lasts ⟨s, line, shown⟩ then line :: next.lasting lines else next.lasting lines := by
  cases lasts : Turn.lasts ⟨s, line, shown⟩ <;> simp [lasting, turns_cons answer, lasts]

/-- The lines that are commands which are carried out lead the session the same way. -/
theorem turns_lasting (s : Session) (lines : List String) :
    s.turns (s.lasting lines) = (s.turns lines).filter Turn.lasts ∧
      (s.run (s.lasting lines)).1 = (s.run lines).1 := by
  fun_induction turns s lines with
  | case1 s => exact ⟨rfl, rfl⟩
  | case2 s line lines gone => simp [lasting, turns, run, gone]
  | case3 s line lines next shown answer ih =>
    obtain ⟨same, final⟩ := ih
    rw [lasting_cons answer, run_cons answer]
    cases lasts : Turn.lasts ⟨s, line, shown⟩ with
    | true =>
      rw [if_pos rfl, turns_cons answer, run_cons answer, same, List.filter_cons_of_pos lasts]
      exact ⟨rfl, final⟩
    | false =>
      -- The session is the same behind the line, which can be left out.
      obtain rfl := eq_of_not_lasts answer lasts
      rw [if_neg Bool.false_ne_true, same, List.filter_cons_of_neg (by simp [lasts])]
      exact ⟨rfl, final⟩

/-- The session that a turn is one of is reached by the lasting lines before it alone. -/
theorem run_lasting_before (split : s.turns lines = before ++ t :: after) :
    (s.run ((before.filter Turn.lasts).map Turn.line)).1 = t.session := by
  obtain ⟨earlier, reached, _⟩ := turns_split split
  have same := (turns_lasting s (before.map Turn.line)).2
  rwa [lasting, earlier, reached] at same

theorem root_known_after (split : s.turns lines = before ++ t :: after) (lasts : t.lasts = true)
    {name : String} (isRoot : t.command = .setRoot name) :
    (∀ later ∈ after, s.config.entities.contains later.session.root = true) ∧
      s.config.entities.contains (s.run lines).1.root = true := by
  obtain ⟨_, _, next, rest, answer, rfl, final⟩ := turns_split split
  have config : t.session.config = s.config := by
    refine (run_invariant (·.config = s.config) ?_ rfl lines).1 t (by simp [split])
    intro earlier next line shown same answer
    exact (respond_config answer).trans same
  have start : next.config = s.config ∧ next.KnowsRoot :=
    ⟨(respond_config answer).trans config, knowsRoot_of_lasts answer lasts isRoot⟩
  have kept := run_invariant (fun reached => reached.config = s.config ∧ reached.KnowsRoot) ?_ start rest
  · rw [← final]
    unfold KnowsRoot at kept
    refine ⟨fun later member => ?_, ?_⟩
    · obtain ⟨same, known⟩ := kept.1 later member
      rwa [same] at known
    · obtain ⟨same, known⟩ := kept.2
      rwa [same] at known
  · rintro earlier next line shown ⟨same, knows⟩ answer
    exact ⟨(respond_config answer).trans same, knows.respond answer⟩

/-- The turns of a session are those of the lines up to the one that leaves it, and what they show is
what is shown; a command is carried out exactly if its turn does not end in a complaint. Without all
other lines the session has the same turns and the same end. In each turn what is shown is what is
shown for the line after the lasting lines before it, and from the turn on in which the root is set it
is an entity of the catalog. -/
theorem run_lasting (s : Session) (lines : List String) :
    ((s.turns lines).map Turn.line = lines.takeWhile (!leaves ·) ∧
        (s.run lines).2 = (s.turns lines).flatMap Turn.shown ∧
        ∀ t ∈ s.turns lines, said t.line ≠ "" →
          (t.session.obeys t.command = false ↔ Complains t.shown)) ∧
      (s.run (s.lasting lines)).1 = (s.run lines).1 ∧
      s.turns (s.lasting lines) = (s.turns lines).filter Turn.lasts ∧
      ∀ before t after, s.turns lines = before ++ t :: after →
        (∃ next, (s.run ((before.filter Turn.lasts).map Turn.line)).1.respond t.line =
            some (next, t.shown)) ∧
          ∀ name, t.lasts → t.command = .setRoot name →
            (∀ later ∈ after, s.config.entities.contains later.session.root = true) ∧
              s.config.entities.contains (s.run lines).1.root = true := by
  obtain ⟨same, final⟩ := turns_lasting s lines
  refine ⟨⟨map_line_turns s lines, run_shown s lines, ?_⟩, final, same, ?_⟩
  · intro t member nonblank
    obtain ⟨before, after, split⟩ := List.append_of_mem member
    obtain ⟨_, _, next, _, answer, _⟩ := turns_split split
    rcases respond_cases answer with ⟨blank, _⟩ | ⟨_, handled⟩
    · exact absurd blank nonblank
    · have complains := complains_iff t.session t.command
      unfold Turn.command at complains ⊢
      rw [handled] at complains
      exact complains.symm
  · intro before t after split
    obtain ⟨_, _, next, _, answer, _⟩ := turns_split split
    refine ⟨⟨next, ?_⟩, fun name lasts isRoot => root_known_after split lasts isRoot⟩
    rw [run_lasting_before split]
    exact answer

/-- Of five lines two are commands that are carried out. The others are an entity that is not in the
catalog, an alias that is registered already, and an expression. -/
theorem run_lasting_refused :
    let s : Session := ⟨⟨.standard, .empty, Table.empty.insert "E" ⟨["x"], []⟩⟩, .empty, "start"⟩
    let lines := ["entity F", "alias m p", "alias m q", "entity E", "x = 1"]
    s.lasting lines = ["alias m p", "entity E"] ∧
      (s.run ["alias m p", "entity E"]).1 = (s.run lines).1 ∧
      ∃ before t after, s.turns lines = before ++ t :: after ∧ t.lasts ∧ t.command = .setRoot "E" ∧
        after.length = 1 ∧ ∀ later ∈ after, s.config.entities.contains later.session.root = true := by
  intro s lines
  have kept : s.lasting lines = ["alias m p", "entity E"] := by decide +kernel
  have split : s.turns lines = (s.turns lines).take 3 ++
      ⟨(s.run (lines.take 3)).1, "entity E", ["✅ 根实体: E"]⟩ :: (s.turns lines).drop 4 := by decide +kernel
  have ⟨_, final, _, each⟩ := run_lasting s lines
  rw [kept] at final
  refine ⟨kept, final, _, _, _, split, by decide +kernel, by decide +kernel, by decide +kernel, ?_⟩
  exact ((each _ _ _ split).2 "E" (by decide +kernel) (by decide +kernel)).1

end Run

end Session

end FilterQuery
