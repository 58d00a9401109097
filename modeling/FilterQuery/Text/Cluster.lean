import FilterQuery.Text.ClusterRanges
import FilterQuery.Text.Runs

/-!
Grapheme clusters: the pieces of a text that its readers take for one character each, such as a
letter with its accents, a flag, or a picture put together from several. Main statement: the
clusters of a text are the text (`flatten_clusters`).
-/
namespace FilterQuery.Text

/-- What a character does to the clusters beside it. -/
inductive ClusterRole where
  /-- It is a cluster of its own. -/
  | control
  /-- It belongs to the character before it. -/
  | extending
  /-- It belongs to the character before it, and binds a picture to a picture after it. -/
  | joiner
  /-- It has a width of its own and belongs to the character before it. -/
  | spacing
  /-- It belongs to the character after it. -/
  | prepended
  /-- It is half of a flag. -/
  | flagHalf
  | pictograph
  | consonant
  /-- It starts a syllable block. -/
  | leading
  /-- It stands in the middle of a syllable block. -/
  | vowel
  /-- It ends a syllable block. -/
  | trailing
  /-- It is a syllable block that a letter may still end. -/
  | openSyllable
  /-- It is a syllable block with its last letter. -/
  | closedSyllable
  | other
deriving DecidableEq

/-- The role of a character, by the property Grapheme_Cluster_Break and the consonants of
Indic_Conjunct_Break. -/
def clusterRole (c : Char) : ClusterRole :=
  let n := c.toNat
  if inRuns controlRuns n then .control
  else if inRuns extendingRuns n then .extending
  else if n = 0x200D then .joiner
  else if inRuns spacingRuns n then .spacing
  else if inRuns prependedRuns n then .prepended
  else if 0x1F1E6 ≤ n ∧ n ≤ 0x1F1FF then .flagHalf
  else if inRuns pictographRuns n then .pictograph
  else if inRuns consonantRuns n then .consonant
  else if inRuns leadingRuns n then .leading
  else if inRuns vowelRuns n then .vowel
  else if inRuns trailingRuns n then .trailing
  else if 0xAC00 ≤ n ∧ n ≤ 0xD7A3 then
    if (n - 0xAC00) % 28 = 0 then .openSyllable else .closedSyllable
  else .other

/-- Whether the character binds the consonant before it to a consonant after it. -/
def isLinker (c : Char) : Bool := inRuns linkerRuns c.toNat

/-- Whether the character may stand between a consonant and the one that it is bound to. -/
def isBetweenConsonants (c : Char) : Bool :=
  (clusterRole c = .extending || clusterRole c = .joiner) && c.toNat != 0x200C

/-- Whether a cluster, written backwards, ends in a picture with its marks. -/
def endsInPictograph (cluster : List Char) : Bool :=
  match cluster.dropWhile (clusterRole · = .extending) with
  | [] => false
  | c :: _ => clusterRole c = .pictograph

/-- Whether a cluster, written backwards, ends in a consonant that a linker binds to the next
one. -/
def endsInLinkedConsonant (cluster : List Char) : Bool :=
  match cluster.dropWhile isBetweenConsonants with
  | [] => false
  | c :: _ => clusterRole c = .consonant && (cluster.takeWhile isBetweenConsonants).any isLinker

/-- Whether a cluster, written backwards, ends in half a flag without its other half. -/
def endsInHalfFlag (cluster : List Char) : Bool :=
  (cluster.takeWhile (clusterRole · = .flagHalf)).length % 2 = 1

/-- Whether a character continues a cluster, which is written backwards. -/
def continues (cluster : List Char) (c : Char) : Bool :=
  match cluster with
  | [] => false
  | last :: earlier =>
    if last = '\r' ∧ c = '\n' then true
    else
      match clusterRole last, clusterRole c with
      | .control, _ => false
      | _, .control => false
      | _, .extending => true
      | _, .joiner => true
      | _, .spacing => true
      | .prepended, _ => true
      | _, .consonant => endsInLinkedConsonant cluster
      | .joiner, .pictograph => endsInPictograph earlier
      | .flagHalf, .flagHalf => endsInHalfFlag cluster
      | .leading, .leading => true
      | .leading, .vowel => true
      | .leading, .openSyllable => true
      | .leading, .closedSyllable => true
      | .openSyllable, .vowel => true
      | .openSyllable, .trailing => true
      | .vowel, .vowel => true
      | .vowel, .trailing => true
      | .closedSyllable, .trailing => true
      | .trailing, .trailing => true
      | _, _ => false

/-- The clusters of a text whose first cluster has begun. What there is of it stands apart and is
written backwards. -/
def clustersAfter (cluster : List Char) : List Char → List (List Char)
  | [] => [cluster.reverse]
  | c :: cs =>
    if continues cluster c then clustersAfter (c :: cluster) cs
    else cluster.reverse :: clustersAfter [c] cs

def clusters : List Char → List (List Char)
  | [] => []
  | c :: cs => clustersAfter [c] cs

theorem flatten_clustersAfter (cluster cs : List Char) :
    (clustersAfter cluster cs).flatten = cluster.reverse ++ cs := by
  induction cs generalizing cluster with
  | nil => simp [clustersAfter]
  | cons c cs ih =>
    unfold clustersAfter
    split
    · simp [ih (c :: cluster)]
    · simp [ih [c]]

/-- The clusters of a text are the text. -/
theorem flatten_clusters (cs : List Char) : (clusters cs).flatten = cs := by
  cases cs with
  | nil => rfl
  | cons c cs => exact flatten_clustersAfter [c] cs

end FilterQuery.Text
