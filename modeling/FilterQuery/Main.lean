import FilterQuery.Session

/-!
The command line program: a session on the lines of standard input. The first argument is the path
of the configuration, and the second is the root entity.
-/
namespace FilterQuery

/-- What is found at a path. -/
def configFileAt (path : String) : IO ConfigFile := do
  try
    return .ofBytes (← IO.FS.readBinFile path)
  catch
    | .noFileOrDirectory .. => return .missing
    | _ => return .unreadable

partial def answerLines (input : IO.FS.Stream) (s : Session) : IO Unit := do
  let line ← input.getLine
  if line.isEmpty then return
  match s.respond line with
  | none => return
  | some (next, shown) =>
    shown.forM IO.println
    answerLines input next

end FilterQuery

open FilterQuery in
/-- A session with the configuration and the root entity that the arguments name. -/
def main (arguments : List String) : IO UInt32 := do
  let path := arguments.head?.getD "catalog.json"
  let (session, shown) := Session.start path (← configFileAt path) arguments[1]?
  shown.forM IO.println
  answerLines (← IO.getStdin) session
  return 0
