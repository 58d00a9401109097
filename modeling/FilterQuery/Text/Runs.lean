/-!
Sets of code points as lists of runs: pairs of a first and a last code point, in increasing order.
-/
namespace FilterQuery.Text

/-- Whether a code point lies in one of the runs, which are in increasing order. -/
def inRuns : List (Nat × Nat) → Nat → Bool
  | [], _ => false
  | (first, last) :: runs, n => if n < first then false else n ≤ last || inRuns runs n

end FilterQuery.Text
