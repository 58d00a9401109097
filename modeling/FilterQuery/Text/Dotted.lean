import FilterQuery.Text.Blank

/-!
Dotted paths: texts read as segments between dots.
-/
namespace FilterQuery.Text

/-- The text before the first dot and the text after it, if there is a dot. -/
def cutAtFirstDot? (cs : List Char) : Option (List Char × List Char) :=
  match cs.dropWhile (· != '.') with
  | [] => none
  | _ :: rest => some (cs.takeWhile (· != '.'), rest)

/-- The text before the last dot and the text after it, if there is a dot. -/
def cutAtLastDot? (cs : List Char) : Option (List Char × List Char) :=
  (cutAtFirstDot? cs.reverse).map fun (last, init) => (init.reverse, last.reverse)

/-- The segments of a dotted path. A path without a dot is one segment, and segments may be
empty. -/
def segments (path : String) : List String :=
  (pieces (· == '.') path.toList).map String.ofList

/-- The dotted path through the given segments. -/
def joinDots : List String → String
  | [] => ""
  | [segment] => segment
  | segment :: segments => segment ++ "." ++ joinDots segments

/-- The head of a dotted path and the rest of it, if there is a dot. -/
def splitHead? (path : String) : Option (String × String) :=
  (cutAtFirstDot? path.toList).map fun (head, rest) => (String.ofList head, String.ofList rest)

/-- The part of a dotted path before its last segment and that segment, if there is a dot. -/
def splitLast? (path : String) : Option (String × String) :=
  (cutAtLastDot? path.toList).map fun (init, last) => (String.ofList init, String.ofList last)

/-- The path as one name, with an underscore in place of each dot. -/
def undotted (path : String) : String :=
  String.ofList (path.toList.map fun c => if c == '.' then '_' else c)

end FilterQuery.Text
