import StumpCompiler.Encoding
import StumpCompiler.Fault
import StumpCompiler.Journal
import StumpCompiler.Text.Quoted
import StumpCompiler.Xml.Document

/-!
Models from documents. Every `weakhyp` element is a hypothesis; what belongs to it may stand at any
depth below it. The `class` elements of the first one name the classes, and every hypothesis votes
with as many `class` elements, in the same order.
-/

namespace StumpCompiler.Reader

open Xml (Node Document)

def source : String := "stumpgen::io::reader"

/-- The elements below a node that have the name `tag`. -/
def elementsNamed (tag : String) (n : Node) : List Node :=
  n.descendants.filter (Node.isNamed tag)

/-- The text of an element of hypothesis `i` that holds nothing else. -/
def soleText (i : Nat) (tag : String) (n : Node) : Except ShapeFault String :=
  match n.singleText? with
  | some text => .ok text
  | none => .error (.nonTextContent i tag)

/-- The text of the one element of hypothesis `i` that has the name `tag`. -/
def scalar (i : Nat) (tag : String) (n : Node) : Except ShapeFault String :=
  match elementsNamed tag n with
  | [] => .error (.missingElement i tag)
  | [element] => soleText i tag element
  | elements => .error (.duplicateElement i tag elements.length)

/-- The identifiers of `class` elements, the first of which has the number `k`. -/
def classIds (k : Nat) : List Node → Except ShapeFault (List String)
  | [] => .ok []
  | n :: ns =>
    match n.attribute? "id" with
    | none => .error (.missingAttribute 0 k "id")
    | some id => (classIds (k + 1) ns).map (id :: ·)

/-- The classes that the first hypothesis names. -/
def classSet (first : Node) : Except ShapeFault ClassSet := do
  ClassSet.ofIds (← classIds 0 (elementsNamed "class" first))

/-- The texts of the `class` elements of hypothesis `i`. -/
def voteTexts (i : Nat) : List Node → Except ShapeFault (List String)
  | [] => .ok []
  | n :: ns => do
    let vote ← soleText i "class" n
    let votes ← voteTexts i ns
    return vote :: votes

/-- A shape fault as a fault of the whole. -/
def shaped {α : Type} (x : Except ShapeFault α) : Except Fault α :=
  x.mapError .shape

/-- Hypothesis `i` of a model with `classCount` classes. -/
def hypothesis (classCount i : Nat) (n : Node) : Except Fault Hypothesis := do
  let alpha ← shaped (scalar i "alpha" n)
  let threshold ← shaped (scalar i "threshold" n)
  let column ← shaped (scalar i "column" n)
  match FeatureRef.resolve? column with
  | none => .error (.undefinedFeature i column)
  | some feature =>
    let votes ← shaped (voteTexts i (elementsNamed "class" n))
    if votes.length ≠ classCount then
      .error (.shape (.classCountMismatch i classCount votes.length))
    else return { alpha, threshold, feature, votes }

/-- The hypotheses of several elements, the first of which has the number `i`. -/
def hypotheses (classCount i : Nat) : List Node → Except Fault (List Hypothesis)
  | [] => .ok []
  | n :: ns => do
    let h ← hypothesis classCount i n
    let hs ← hypotheses classCount (i + 1) ns
    return h :: hs

/-- The model of a document. -/
def model (d : Document) : Except Fault Model :=
  match (Xml.nodes d).filter (Node.isNamed "weakhyp") with
  | [] => .error (.shape .noHypotheses)
  | first :: rest => do
    let classes ← shaped (classSet first)
    let hs ← hypotheses classes.size 0 (first :: rest)
    shaped (Model.ofParts classes hs)

/-- The model that a text describes. -/
def ofText (text : List Char) : Except Fault Model := do
  model (← (Xml.parse text).mapError .malformed)

/-- The model that the bytes of a file describe. -/
def ofBytes (bytes : List UInt8) : Except Fault Model := do
  ofText (← (Encoding.decode bytes).mapError .io)

/-- What the journal says of a hypothesis. -/
def hypothesisRecord (i : Nat) (h : Hypothesis) : Record where
  severity := .trace
  source := source
  message := "weakhyp #" ++ toString i ++ ": alpha=" ++ h.alpha ++ " threshold=" ++ h.threshold ++
    " column=" ++ h.feature.column ++ " votes=" ++ Text.Quoted.list h.votes

/-- A record for every hypothesis up to the first that cannot be read. -/
def hypothesisRecords (classCount i : Nat) : List Node → List Record
  | [] => []
  | n :: ns =>
    match hypothesis classCount i n with
    | .error _ => []
    | .ok h => hypothesisRecord i h :: hypothesisRecords classCount (i + 1) ns

/-- What the journal says of reading a document. -/
def modelRecords (d : Document) : List Record :=
  match (Xml.nodes d).filter (Node.isNamed "weakhyp") with
  | [] => []
  | first :: rest =>
    match classSet first with
    | .error _ => []
    | .ok classes =>
      ⟨.debug, source, "class registry: " ++ Text.Quoted.list classes.ids⟩ ::
        hypothesisRecords classes.size 0 (first :: rest)

/-- What the journal says of reading a text. -/
def textRecords (text : List Char) : List Record :=
  match Xml.parse text with
  | .error _ => []
  | .ok d => modelRecords d

/-- What the journal says of reading the bytes of the file `path`. -/
def byteRecords (path : String) (bytes : List UInt8) : List Record :=
  ⟨.debug, source, "read " ++ toString bytes.length ++ " bytes from " ++ path⟩ ::
    (match Encoding.latin1Label? bytes with
      | none => []
      | some label => [⟨.debug, source, "decoding model as " ++ label⟩]) ++
    match Encoding.decode bytes with
    | .error _ => []
    | .ok text => textRecords text

end StumpCompiler.Reader
