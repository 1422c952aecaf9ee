import Calculator.Text.ClusterClass

/-! Clusters: the runs of characters that a reader sees as one. No character is lost or moved. -/

namespace Calculator.Text

/-- How far a picture made of several pictographs has come. -/
inductive PictureState where
  | none
  /-- A pictograph, perhaps with marks. -/
  | drawn
  /-- A joiner after it asks for another pictograph. -/
  | joined
  deriving DecidableEq

/-- How far a group of joined consonants has come. -/
inductive ConjunctState where
  | none
  /-- A consonant, perhaps with marks. -/
  | consonant
  /-- A sign after it asks for another consonant. -/
  | linked
  deriving DecidableEq

/-- What the characters of a cluster so far say about the next one. -/
structure ClusterState where
  last : ClusterClass
  picture : PictureState
  conjunct : ConjunctState
  /-- The last character is the first half of a flag. -/
  halfFlag : Bool

namespace ClusterState

/-- Nothing has been seen. -/
def blank : ClusterState := ⟨.other, .none, .none, false⟩

/-- The state after one more character of the cluster. -/
def add (state : ClusterState) (char : Char) : ClusterState :=
  let next := ClusterClass.ofChar char
  { last := next
    picture :=
      match next, state.picture with
      | .pictograph, _ => .drawn
      | .extend, .drawn => .drawn
      | .joiner, .drawn => .joined
      | _, _ => .none
    conjunct :=
      if isJoinedConsonant char then .consonant
      else if state.conjunct = .none then .none
      else if isLinker char then .linked
      else if next = .joiner then state.conjunct
      -- The non-joiner is a mark that keeps consonants apart.
      else if next = .extend ∧ char.toNat ≠ 0x200C then state.conjunct
      else .none
    halfFlag := next = .regional && !(state.last = .regional && state.halfFlag) }

/-- The next character belongs to the cluster. -/
def admits (state : ClusterState) (char : Char) : Bool :=
  match state.last, ClusterClass.ofChar char with
  | .carriageReturn, .lineFeed => true
  | .carriageReturn, _ | .lineFeed, _ | .control, _ => false
  | _, .carriageReturn | _, .lineFeed | _, .control => false
  | _, .extend | _, .joiner | _, .spacing => true
  | .prepend, _ => true
  | .leadingConsonant, .leadingConsonant | .leadingConsonant, .vowel
  | .leadingConsonant, .openSyllable | .leadingConsonant, .closedSyllable => true
  | .openSyllable, .vowel | .openSyllable, .trailingConsonant
  | .vowel, .vowel | .vowel, .trailingConsonant => true
  | .closedSyllable, .trailingConsonant | .trailingConsonant, .trailingConsonant => true
  | .joiner, .pictograph => state.picture = .joined
  | .regional, .regional => state.halfFlag
  | _, _ => state.conjunct = .linked && isJoinedConsonant char

end ClusterState

/-- The clusters of a text whose first cluster has begun; `begun` holds its characters, the last one
first. -/
def clustersFrom (begun : List Char) (state : ClusterState) : List Char → List (List Char)
  | [] => [begun.reverse]
  | char :: rest =>
    if state.admits char then clustersFrom (char :: begun) (state.add char) rest
    else begun.reverse :: clustersFrom [char] (ClusterState.blank.add char) rest

/-- The clusters of a text, in order. -/
def clusters : List Char → List (List Char)
  | [] => []
  | char :: rest => clustersFrom [char] (ClusterState.blank.add char) rest

/-- Clusters begun and clusters to come make up the whole text. -/
theorem flatten_clustersFrom (begun : List Char) (state : ClusterState) (text : List Char) :
    (clustersFrom begun state text).flatten = begun.reverse ++ text := by
  -- A character either joins the cluster that has begun or begins the next one.
  induction text generalizing begun state with
  | nil => simp [clustersFrom]
  | cons char rest ih =>
    simp only [clustersFrom]
    split <;> simp [ih]

/-- Side by side, the clusters are the text. -/
theorem flatten_clusters (text : List Char) : (clusters text).flatten = text := by
  -- The first character opens a cluster, and the others are added to it or open their own.
  cases text with
  | nil => rfl
  | cons char rest => simp [clusters, flatten_clustersFrom]

end Calculator.Text
