import StumpCompiler.Proofs.Reader.Grammar
import StumpCompiler.Proofs.Xml.Document
import StumpCompiler.Proofs.Xml.Tree

/-! Model documents as they are written, a line for each element, and the trees of such
documents. -/

namespace StumpCompiler

/-- A hypothesis as it is written. -/
structure HypothesisText where
  alpha : String
  threshold : String
  column : String
  votes : List String

namespace HypothesisText

def ofHypothesis (h : Hypothesis) : HypothesisText :=
  ⟨h.alpha, h.threshold, h.feature.column, h.votes⟩

end HypothesisText

namespace Reader

open Xml (Node Document)

def classLine (id? : Option String) (vote : String) : String :=
  match id? with
  | some id => "    <class id=\"" ++ id ++ "\">" ++ vote ++ "</class>\n"
  | none => "    <class>" ++ vote ++ "</class>\n"

/-- The lines of the hypothesis with the number `index`. The first hypothesis names the classes. -/
def hypothesisLines (ids : List String) (index : ℕ) (h : HypothesisText) : String :=
  "  <weakhyp>\n" ++
    "    <alpha>" ++ h.alpha ++ "</alpha>\n" ++
    "    <threshold>" ++ h.threshold ++ "</threshold>\n" ++
    "    <column>" ++ h.column ++ "</column>\n" ++
    String.join (h.votes.mapIdx fun slot vote =>
      classLine (if index = 0 then ids[slot]? else none) vote) ++
  "  </weakhyp>\n"

/-- The document of a model. -/
def modelXml (ids : List String) (hs : List HypothesisText) : String :=
  "<?xml version=\"1.0\"?>\n<model>\n" ++ String.join (hs.mapIdx (hypothesisLines ids)) ++
    "</model>\n"

/-! Its tree. -/

def leaf (tag : String) (attributes : List Xml.Attribute) (text : String) : Node :=
  .element ⟨"", tag⟩ attributes [.text text]

/-- Nodes with a line of their own each. -/
def lines (indent : String) (ns : List Node) : List Node :=
  ns.flatMap fun n => [.text ("\n" ++ indent), n]

/-- An element that holds nodes on lines of their own. -/
def block (tag outer inner : String) (ns : List Node) : Node :=
  .element ⟨"", tag⟩ [] (lines inner ns ++ [.text ("\n" ++ outer)])

def classNode (id? : Option String) (vote : String) : Node :=
  leaf "class" (id?.toList.map fun id => ⟨⟨"", "id"⟩, id⟩) vote

def classNodesOf (ids : List String) (index : ℕ) (votes : List String) : List Node :=
  votes.mapIdx fun slot vote => classNode (if index = 0 then ids[slot]? else none) vote

def hypothesisNode (ids : List String) (index : ℕ) (h : HypothesisText) : Node :=
  block "weakhyp" "  " "    "
    (leaf "alpha" [] h.alpha :: leaf "threshold" [] h.threshold :: leaf "column" [] h.column ::
      classNodesOf ids index h.votes)

def modelNode (ids : List String) (hs : List HypothesisText) : Node :=
  block "model" "" "  " (hs.mapIdx (hypothesisNode ids))

/-! The tree is printed as the document. -/

theorem printAll_append (ms ns : List Node) :
    Xml.printAll (ms ++ ns) = Xml.printAll ms ++ Xml.printAll ns := by
  induction ms with
  | nil => rfl
  | cons m ms ih => simp [Xml.printAll, ih]

theorem printAll_lines (indent : String) (ns : List Node) (cs : List Char) :
    Xml.printAll (lines indent ns) ++ '\n' :: cs =
      '\n' :: (ns.flatMap fun n => indent.toList ++ n.print ++ ['\n']) ++ cs := by
  induction ns with
  | nil => rfl
  | cons n ns ih =>
    have parts : lines indent (n :: ns) = .text ("\n" ++ indent) :: n :: lines indent ns := rfl
    rw [parts, Xml.printAll, Xml.printAll, List.append_assoc, List.append_assoc, ih]
    simp [Node.print]

theorem print_block (tag outer inner : String) (ns : List Node) :
    (block tag outer inner ns).print =
      '<' :: tag.toList ++ ['>', '\n'] ++ (ns.flatMap fun n => inner.toList ++ n.print ++ ['\n']) ++
        outer.toList ++ '<' :: '/' :: tag.toList ++ ['>'] := by
  have last : Xml.printAll [.text ("\n" ++ outer)] = '\n' :: outer.toList := by
    simp [Xml.printAll, Node.print]
  rw [block, Node.print, printAll_append, last, printAll_lines]
  simp [Xml.printTagRest]

theorem print_leaf (tag : String) (as : List Xml.Attribute) (text : String) :
    (leaf tag as text).print = '<' :: tag.toList ++ Xml.printTagRest as ++ text.toList ++
      '<' :: '/' :: tag.toList ++ ['>'] := by
  simp [leaf, Node.print, Xml.printAll]

theorem print_classNode (id? : Option String) (vote : String) :
    "    ".toList ++ (classNode id? vote).print ++ ['\n'] = (classLine id? vote).toList := by
  rw [classNode, print_leaf]
  cases id? with
  | none =>
    unfold classLine
    simp only [String.toList_append]
    simp [Xml.printTagRest]
  | some id =>
    unfold classLine
    simp only [String.toList_append]
    simp [Xml.printTagRest, Xml.Attribute.print, Xml.quoted]

theorem flatMap_mapIdx_eq {α β : Type} (f : ℕ → α → β) (g : β → List Char) (k : ℕ → α → String)
    (same : ∀ i a, g (f i a) = (k i a).toList) (xs : List α) :
    (xs.mapIdx f).flatMap g = (String.join (xs.mapIdx k)).toList := by
  induction xs generalizing f k with
  | nil => rfl
  | cons x xs ih =>
    have rest := ih (fun i => f (i + 1)) (fun i => k (i + 1)) fun i => same (i + 1)
    rw [String.toList_join] at rest ⊢
    rw [List.mapIdx_cons, List.mapIdx_cons, List.flatMap_cons, List.flatMap_cons, rest, same]

theorem print_hypothesisNode (ids : List String) (index : ℕ) (h : HypothesisText) :
    "  ".toList ++ (hypothesisNode ids index h).print ++ ['\n'] =
      (hypothesisLines ids index h).toList := by
  have classes := flatMap_mapIdx_eq _ (fun n : Node => "    ".toList ++ n.print ++ ['\n']) _
    (fun slot => print_classNode (if index = 0 then ids[slot]? else none)) h.votes
  rw [hypothesisNode, print_block]
  unfold hypothesisLines
  simp only [List.flatMap_cons, classNodesOf, classes, print_leaf, String.toList_append]
  simp [Xml.printTagRest]

theorem toList_modelXml (ids : List String) (hs : List HypothesisText) :
    (modelXml ids hs).toList =
      "<?xml version=\"1.0\"?>\n".toList ++ (modelNode ids hs).print ++ ['\n'] := by
  have hypotheses := flatMap_mapIdx_eq _ (fun n : Node => "  ".toList ++ n.print ++ ['\n']) _
    (print_hypothesisNode ids) hs
  have head : "<?xml version=\"1.0\"?>\n<model>\n".toList =
      "<?xml version=\"1.0\"?>\n".toList ++ "<model>\n".toList := by decide
  rw [modelNode, print_block, hypotheses]
  unfold modelXml
  simp only [String.toList_append, head]
  simp

/-! What stands where in the tree. -/

theorem filter_nodes_lines (tag indent : String) (ns : List Node) :
    (Xml.nodes (lines indent ns)).filter (Node.isNamed tag) =
      (Xml.nodes ns).filter (Node.isNamed tag) := by
  induction ns with
  | nil => rfl
  | cons n ns ih =>
    have parts : Xml.nodes (lines indent (n :: ns)) =
        .text ("\n" ++ indent) :: (n.subtree ++ Xml.nodes (lines indent ns)) := rfl
    rw [parts, List.filter_cons, List.filter_append, ih, Xml.nodes, List.filter_append]
    rfl

theorem elementsNamed_block (t tag outer inner : String) (ns : List Node) :
    elementsNamed tag (block t outer inner ns) = (Xml.nodes ns).filter (Node.isNamed tag) := by
  have children : (block t outer inner ns).descendants =
      Xml.nodes (lines inner ns) ++ [.text ("\n" ++ outer)] :=
    Xml.nodes_append _ _
  rw [elementsNamed, children, List.filter_append, filter_nodes_lines]
  exact List.append_nil _

theorem elementsNamed_leaf (t tag text : String) (as : List Xml.Attribute) :
    elementsNamed tag (leaf t as text) = [] :=
  rfl

end Reader

end StumpCompiler
