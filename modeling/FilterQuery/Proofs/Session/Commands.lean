import FilterQuery.Session

/-!
The lines that a session takes for commands, and what becomes of the others. Main statement: a line is
a command exactly if its words are those of the command, but words behind the path of an alias do not
count (`Command.ofLine_iff`).
-/
namespace FilterQuery

open Text

namespace Command

/-- The words of a command. An expression is no command, whatever its words. -/
def form? : Command → Option (List String)
  | help => some ["help"]
  | register name path => some ["alias", name, path]
  | setMain name => some ["main", name]
  | showAliases => some ["aliases"]
  | clearAliases => some ["clear"]
  | setRoot entity => some ["entity", entity]
  | evaluate _ => none

def wordsOf (line : String) : List String := (words line.toList).map String.ofList

/-- The words are those of the registration of an alias, and more behind them. -/
def Overlong (name path : String) (ws : List String) : Prop :=
  ∃ word more, ws = "alias" :: name :: path :: word :: more

variable {line : String} {command : Command}

theorem ofLine_of_form? (form : command.form? = some (wordsOf line)) : ofLine line = command := by
  unfold ofLine
  unfold wordsOf at form
  cases command with
  | evaluate expression => cases form
  | _ =>
    have spelled := Option.some.inj form
    rw [← spelled]
    rfl

theorem ofLine_of_overlong {name path : String} (overlong : Overlong name path (wordsOf line)) :
    ofLine line = register name path := by
  obtain ⟨word, more, spelled⟩ := overlong
  unfold wordsOf at spelled
  unfold ofLine
  rw [spelled]
  rfl

/-- A line that is not taken for its own expression is taken for the command of its words. -/
theorem ofLine_cases (line : String) : ofLine line = evaluate line ∨
    (ofLine line).form? = some (wordsOf line) ∨
      ∃ name path, ofLine line = register name path ∧ Overlong name path (wordsOf line) := by
  unfold ofLine wordsOf
  split
  · next spelled => exact .inr (.inl (by rw [spelled]; rfl))
  · next name path more spelled =>
    cases more with
    | nil => exact .inr (.inl (by rw [spelled]; rfl))
    | cons word more => exact .inr (.inr ⟨name, path, rfl, word, more, spelled⟩)
  · next name spelled => exact .inr (.inl (by rw [spelled]; rfl))
  · next spelled => exact .inr (.inl (by rw [spelled]; rfl))
  · next spelled => exact .inr (.inl (by rw [spelled]; rfl))
  · next name spelled => exact .inr (.inl (by rw [spelled]; rfl))
  · exact .inl rfl

/-- A line is a command exactly if its words are those of the command, or if it registers an alias and
has more words behind that; and the session is left as it is by any other line, to which it answers as
to an expression. -/
theorem ofLine_iff (line : String) :
    (∀ command : Command, command.form?.isSome →
      (ofLine line = command ↔ command.form? = some (wordsOf line) ∨
        ∃ name path, command = register name path ∧ Overlong name path (wordsOf line))) ∧
      ∀ s : Session, (∀ command : Command, command.form? ≠ some (wordsOf line)) →
        (∀ name path, ¬Overlong name path (wordsOf line)) →
        s.handle (ofLine line) = (s, s.evaluate line) := by
  constructor
  · intro command known
    constructor
    · rintro rfl
      rcases ofLine_cases line with expression | form | overlong
      · rw [expression] at known
        cases known
      · exact .inl form
      · exact .inr overlong
    · rintro (form | ⟨name, path, rfl, overlong⟩)
      · exact ofLine_of_form? form
      · exact ofLine_of_overlong overlong
  · intro s noForm notOverlong
    rcases ofLine_cases line with expression | form | ⟨name, path, _, overlong⟩
    · rw [expression]
      rfl
    · exact absurd form (noForm _)
    · exact absurd overlong (notOverlong name path)

/-- A filter on a field of that name is taken for the registration of an alias. -/
theorem ofLine_overlong : (register "IS" "NOT").form?.isSome ∧
    wordsOf "alias IS NOT NULL" = ["alias", "IS", "NOT", "NULL"] ∧
      (register "IS" "NOT").form? ≠ some (wordsOf "alias IS NOT NULL") ∧
      ofLine "alias IS NOT NULL" = register "IS" "NOT" := by
  have spelled : wordsOf "alias IS NOT NULL" = ["alias", "IS", "NOT", "NULL"] := by decide +kernel
  refine ⟨rfl, spelled, by rw [spelled]; decide, ?_⟩
  exact ((ofLine_iff "alias IS NOT NULL").1 (register "IS" "NOT") rfl).mpr
    (.inr ⟨"IS", "NOT", rfl, "NULL", [], spelled⟩)

end Command

end FilterQuery
