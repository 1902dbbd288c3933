import StumpCompiler.Feature

/-!
Boosted decision-stump models. Numbers are kept as the text the document has: the generated code
gets them unchanged.
-/

namespace StumpCompiler

/-- How a model or its document fails to have the shape of a model. Hypotheses and the `class`
elements of one hypothesis are counted from zero. -/
inductive ShapeFault where
  | noHypotheses
  | emptyClassSet
  | missingElement (hypothesis : Nat) (element : String)
  | duplicateElement (hypothesis : Nat) (element : String) (count : Nat)
  /-- The element holds anything but a single text. -/
  | nonTextContent (hypothesis : Nat) (element : String)
  | missingAttribute (hypothesis : Nat) (index : Nat) (name : String)
  | classCountMismatch (hypothesis : Nat) (expected actual : Nat)
  deriving DecidableEq

def ShapeFault.message : ShapeFault → String
  | noHypotheses => "document contains no <weakhyp> element"
  | emptyClassSet => "first <weakhyp> declares no <class> elements"
  | missingElement hypothesis element =>
    "weakhyp #" ++ toString hypothesis ++ ": missing <" ++ element ++ ">"
  | duplicateElement hypothesis element count =>
    "weakhyp #" ++ toString hypothesis ++ ": expected one <" ++ element ++ ">, found " ++
      toString count
  | nonTextContent hypothesis element =>
    "weakhyp #" ++ toString hypothesis ++ ": <" ++ element ++ "> must contain a single text node"
  | missingAttribute hypothesis index name =>
    "weakhyp #" ++ toString hypothesis ++ ": <class> #" ++ toString index ++ " has no '" ++
      name ++ "' attribute"
  | classCountMismatch hypothesis expected actual =>
    "weakhyp #" ++ toString hypothesis ++ ": expected " ++ toString expected ++
      " <class> votes, found " ++ toString actual

/-- The identifiers of the classes, at least one. The place of an identifier is its vote slot. -/
structure ClassSet where
  ids : List String
  ids_ne_nil : ids ≠ []
  deriving DecidableEq

namespace ClassSet

def ofIds (ids : List String) : Except ShapeFault ClassSet :=
  if h : ids = [] then .error .emptyClassSet else .ok ⟨ids, h⟩

def size (c : ClassSet) : Nat := c.ids.length

def isEmpty (c : ClassSet) : Bool := c.ids.isEmpty

/-- The identifier of a vote slot. -/
def id? (c : ClassSet) (slot : Nat) : Option String := c.ids[slot]?

end ClassSet

/-- One boosting round: a weight, a threshold for one feature and a vote for every class. -/
structure Hypothesis where
  alpha : String
  threshold : String
  feature : FeatureRef
  votes : List String
  deriving DecidableEq

/-- The first hypothesis, counted from `i`, that does not have `n` votes, with its number of
votes. -/
def firstMiscount (n i : Nat) : List Hypothesis → Option (Nat × Nat)
  | [] => none
  | h :: hs => if h.votes.length = n then firstMiscount n (i + 1) hs else some (i, h.votes.length)

theorem votes_length_of_firstMiscount {n i : Nat} {hs : List Hypothesis}
    (none_wrong : firstMiscount n i hs = none) : ∀ h ∈ hs, h.votes.length = n := by
  induction hs generalizing i with
  | nil => simp
  | cons h hs ih =>
    rw [firstMiscount] at none_wrong
    split at none_wrong
    · next length_eq =>
      intro g hg
      rcases List.mem_cons.mp hg with rfl | hg
      · exact length_eq
      · exact ih none_wrong g hg
    · simp at none_wrong

/-- A class set and at least one hypothesis; every hypothesis votes once for each class. -/
structure Model where
  classes : ClassSet
  hypotheses : List Hypothesis
  hypotheses_ne_nil : hypotheses ≠ []
  votes_length : ∀ h ∈ hypotheses, h.votes.length = classes.size
  deriving DecidableEq

namespace Model

def ofParts (classes : ClassSet) (hypotheses : List Hypothesis) : Except ShapeFault Model :=
  if none_left : hypotheses = [] then .error .noHypotheses
  else match count : firstMiscount classes.size 0 hypotheses with
    | some (i, actual) => .error (.classCountMismatch i classes.size actual)
    | none => .ok ⟨classes, hypotheses, none_left, votes_length_of_firstMiscount count⟩

def classCount (m : Model) : Nat := m.classes.size

def hypothesisCount (m : Model) : Nat := m.hypotheses.length

/-- How many vote statements the generated code has. -/
def voteStatementCount (m : Model) : Nat := m.classCount * m.hypothesisCount

/-- The features that occur, each with the number of its hypotheses. -/
def usage (m : Model) : List (Feature × Nat) :=
  Feature.all.filterMap fun f =>
    let n := m.hypotheses.countP fun h => h.feature.feature = f
    if n = 0 then none else some (f, n)

/-- The references spelled otherwise than by the column name, the first of each spelling; those
spelled as in `seen` are left out. -/
def spellings (seen : List String) : List FeatureRef → List FeatureRef
  | [] => []
  | r :: rs =>
    if r.isCanonical || seen.contains r.column then spellings seen rs
    else r :: spellings (r.column :: seen) rs

/-- The spellings for which the generated code declares an alias, in order of appearance. -/
def aliases (m : Model) : List FeatureRef :=
  spellings [] (m.hypotheses.map Hypothesis.feature)

end Model

end StumpCompiler
