import FilterQuery.Text.Blank
import FilterQuery.Text.Cluster

/-!
The lines that a session is given: commands, and expressions.
-/
namespace FilterQuery

open Text

inductive Command where
  | help
  | register (name path : String)
  | setMain (name : String)
  | showAliases
  | clearAliases
  | setRoot (entity : String)
  | evaluate (expression : String)
deriving DecidableEq

/-- The characters that stay of a line. A backspace takes back the cluster before it, if there is
one. -/
def Command.kept (line : List Char) : List Char :=
  ((clusters line).foldl (fun before cluster =>
    if cluster = ['\x08'] then before.drop 1 else cluster :: before) []).reverse.flatten

/-- What a line asks for, by its words. Words behind the path of an alias do not count; any other
line that is not word for word a command is an expression. -/
def Command.ofLine (line : String) : Command :=
  match (words line.toList).map String.ofList with
  | ["help"] => help
  | "alias" :: name :: path :: _ => register name path
  | ["main", name] => setMain name
  | ["aliases"] => showAliases
  | ["clear"] => clearAliases
  | ["entity", name] => setRoot name
  | _ => evaluate line

end FilterQuery
