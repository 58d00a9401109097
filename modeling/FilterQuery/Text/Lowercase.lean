import FilterQuery.Text.CaseRanges
import FilterQuery.Text.Runs

/-!
The lower-case form of a text by the rules of Unicode. It goes character by character, with two
exceptions: the capital I with a dot above becomes two characters, and a capital sigma at the end
of a word takes the form that Greek has for that place.
-/
namespace FilterQuery.Text

def isCased (c : Char) : Bool := inRuns casedRuns c.toNat

/-- Marks that do not end a word and have no case that counts. -/
def isCaseIgnorable (c : Char) : Bool := inRuns caseIgnorableRuns c.toNat

def lowerChar (c : Char) : List Char :=
  let n := c.toNat
  if n == 0x130 then ['i', Char.ofNat 0x307]
  else
    match loweringRuns.find? fun (first, last, step, _) =>
        first ≤ n && n ≤ last && (n - first) % step == 0 with
    | some (_, _, _, shift) => [Char.ofNat (n + shift).toNat]
    | none => [c]

/-- Whether the first character that is not passed over is a letter with case. -/
def meetsCased (cs : List Char) : Bool :=
  match cs.dropWhile isCaseIgnorable with
  | [] => false
  | c :: _ => isCased c

/-- The lower-case form of what follows the given text, which is written backwards. -/
def lowerAfter (before : List Char) : List Char → List Char
  | [] => []
  | c :: cs =>
    let lowered :=
      if c == 'Σ' then (if meetsCased before && !meetsCased cs then ['ς'] else ['σ'])
      else lowerChar c
    lowered ++ lowerAfter (c :: before) cs

def lowercase (text : String) : String := String.ofList (lowerAfter [] text.toList)

end FilterQuery.Text
