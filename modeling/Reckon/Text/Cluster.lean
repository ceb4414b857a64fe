import Reckon.Text.Cluster.Break

/-!
# Clusters

A text falls into clusters, each of which a reader takes for one character: a letter with its marks,
a Hangul syllable, a conjunct, a flag, or pictographs that are joined to one. A character is joined
to the cluster before it by the rules for extended grapheme clusters.
-/

namespace Reckon.Cluster

/-- Whether a cluster, with its last character first, ends in a consonant with marks behind it of
which one is a linker. -/
def isLinked (cluster : List Char) : Bool :=
  (cluster.takeWhile Break.isInConjunct).any Break.isLinker &&
    (cluster.dropWhile Break.isInConjunct).head?.any (Break.of · = .consonant)

/-- Whether characters, the last one first, end in a pictograph with marks behind it. -/
def isPictured (cluster : List Char) : Bool :=
  (cluster.dropWhile (Break.of · = .extend)).head?.any (Break.of · = .pictograph)

/-- Whether a cluster, with its last character first, ends in one half of a flag. -/
def isHalfFlag (cluster : List Char) : Bool :=
  (cluster.takeWhile (Break.of · = .regional)).length % 2 = 1

/-- Whether a cluster, with its last character first, takes in a further character. -/
def joins (cluster : List Char) (c : Char) : Bool :=
  match cluster with
  | [] => false
  | last :: before =>
    match Break.of last, Break.of c with
    | .carriageReturn, .lineFeed => true
    | .carriageReturn, _ | .lineFeed, _ | .control, _ => false
    | _, .carriageReturn | _, .lineFeed | _, .control => false
    | .leading, .leading | .leading, .vowel => true
    | .leading, .openSyllable | .leading, .closedSyllable => true
    | .openSyllable, .vowel | .openSyllable, .trailing => true
    | .vowel, .vowel | .vowel, .trailing => true
    | .closedSyllable, .trailing | .trailing, .trailing => true
    | _, .extend | _, .joiner | _, .spacingMark => true
    | .prepend, _ => true
    | _, .consonant => isLinked cluster
    | .joiner, .pictograph => isPictured before
    | .regional, .regional => isHalfFlag cluster
    | _, _ => false

/-- The clusters of a text of which the first has begun, with its last character first. -/
def splitFrom (cluster : List Char) : List Char → List (List Char)
  | [] => [cluster.reverse]
  | c :: rest =>
    if joins cluster c then splitFrom (c :: cluster) rest
    else cluster.reverse :: splitFrom [c] rest

/-- The clusters of a text. -/
def split : List Char → List (List Char)
  | [] => []
  | c :: rest => splitFrom [c] rest

end Reckon.Cluster
