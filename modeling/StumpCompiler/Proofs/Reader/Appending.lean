import StumpCompiler.Proofs.Reader.RoundTrip
import StumpCompiler.Proofs.Reader.Sequence

/-! Documents to which hypotheses are appended. What was read of a document stays as it is, and what
was wrong with it stays wrong in the same way. -/

namespace StumpCompiler.Reader

open Xml (Node Document IsPlainText)

/-- The hypotheses among the children of the root are `ws`, and there are no others: none inside
these or inside what stands between them, and the root is not one itself. No element stands beside
the root. -/
def Lists (d : Document) (ws : List Node) : Prop :=
  ∃ front name attributes children back,
    d = front ++ .element name attributes children :: back ∧ name.localName ≠ "weakhyp" ∧
      (∀ n ∈ front ++ back, n.isElement = false) ∧
      (∀ n ∈ children, elementsNamed "weakhyp" n = []) ∧
      children.filter (Node.isNamed "weakhyp") = ws

variable {d d' : Document} {ws ms : List Node} {text text' : List Char}

theorem filter_nodes_of_isElement {tag : String} {ns : List Node}
    (none : ∀ n ∈ ns, n.isElement = false) :
    (Xml.nodes ns).filter (Node.isNamed tag) = [] := by
  have leaf (n : Node) (h : n.isElement = false) :
      elementsNamed tag n = [] ∧ n.isNamed tag = false := by
    cases n with
    | element => contradiction
    | text | comment | instruction => exact ⟨rfl, rfl⟩
  rw [filter_nodes fun n hn => (leaf n (none n hn)).1, List.filter_eq_nil_iff]
  intro n hn
  simp [(leaf n (none n hn)).2]

theorem Lists.hypothesisNodes_eq (h : Lists d ws) : hypothesisNodes d = ws := by
  obtain ⟨front, name, attributes, children, back, rfl, other, beside, alone, rfl⟩ := h
  have root : (Node.element name attributes children).isNamed "weakhyp" = false := by
    simpa [Node.isNamed] using other
  simp only [List.mem_append] at beside
  rw [hypothesisNodes, Xml.nodes_append, List.filter_append, Xml.nodes, List.filter_append,
    filter_nodes_of_isElement fun n hn => beside n (.inl hn),
    filter_nodes_of_isElement fun n hn => beside n (.inr hn), Node.subtree, List.filter_cons, root,
    filter_nodes alone]
  simp

theorem Lists.model_eq (h : Lists d ws) : model d = modelOf ws := by
  rw [model_eq_modelOf, h.hypothesisNodes_eq]

theorem Lists.ofText_eq (h : Lists d ws) (parsed : Xml.parse text = .ok d) :
    ofText text = modelOf ws := by
  rw [ofText, parsed]
  exact h.model_eq

/-- Let a document be followed by one with more hypotheses behind those it has. If the first is not
read, the second fails in the same way: both fail at the first hypothesis at fault, whatever stands
behind it. If the first is read, the second is read as well, with the same classes and the
hypotheses of both, or it fails at the first of the further hypotheses that does not have the shape
of one with a vote for each of those classes. -/
theorem ofText_append (some : ws ≠ []) (lists : Lists d ws) (lists' : Lists d' (ws ++ ms))
    (parsed : Xml.parse text = .ok d) (parsed' : Xml.parse text' = .ok d') :
    (∀ e, ofText text = .error e → ofText text' = .error e ∧
      ∃ front n back, ws = front ++ n :: back ∧
        (front ≠ [] → ∀ d, Lists d front → ∃ m, model d = .ok m) ∧
        ∀ behind d, Lists d (front ++ n :: behind) → model d = .error e) ∧
      ∀ m, ofText text = .ok m →
        ((∀ n ∈ ms, IsHypothesisShaped m.classCount n) →
          ∃ all hs, ofText text' = .ok all ∧ all.classes = m.classes ∧
            all.hypotheses = m.hypotheses ++ hs ∧ List.Forall₂ IsHypothesis ms hs) ∧
        ((¬∀ n ∈ ms, IsHypothesisShaped m.classCount n) →
          ∃ front n back e, ms = front ++ n :: back ∧
            (∀ x ∈ front, IsHypothesisShaped m.classCount x) ∧
            hypothesis m.classCount 0 n = .error e ∧
            ofText text' = .error (e.later (ws.length + front.length))) := by
  rw [lists.ofText_eq parsed, lists'.ofText_eq parsed']
  refine ⟨fun e fault => ⟨modelOf_append_eq_error some fault ms, ?_⟩, fun m read => ?_⟩
  · obtain ⟨front, n, back, same, fine, behind⟩ := exists_first_fault some fault
    refine ⟨front, n, back, same, fun filled d h => ?_, fun more d h => ?_⟩
    · rw [h.model_eq]
      exact fine filled
    · rw [h.model_eq]
      exact behind more
  · obtain ⟨well, badly⟩ := modelOf_append_of_ok some read ms
    refine ⟨fun shaped => ?_, fun unshaped => ?_⟩
    · obtain ⟨hs, more⟩ := exists_hypotheses_iff.mpr shaped
      obtain ⟨all, both, classes, together⟩ := well hs more
      exact ⟨all, hs, both, classes, together, (hypotheses_eq_ok_iff.mp more).1⟩
    · rcases more : hypotheses m.classCount ws.length ms with e | hs
      · obtain ⟨front, n, back, same, fine, fault⟩ := hypotheses_eq_error_iff.mp more
        rw [← Nat.zero_add (ws.length + front.length), hypothesis_later] at fault
        obtain ⟨alone, own, rfl⟩ := mapError_eq_error_iff.mp fault
        exact ⟨front, n, back, alone, same, exists_hypotheses_iff.mp fine, own,
          badly _ more⟩
      · exact absurd (exists_hypotheses_iff.mp ⟨hs, more⟩) unshaped

/-- A round for the class `a`. -/
def roundNode (column : String) : Node :=
  .element ⟨"", "weakhyp"⟩ [] [leaf "alpha" [] "1", leaf "threshold" [] "2",
    leaf "column" [] column, classNode (some "a") "3"]

/-- A round for each of the columns. -/
def roundsTree (columns : List String) : Node :=
  .element ⟨"", "m"⟩ [] (columns.map roundNode)

def roundsText (columns : List String) : List Char :=
  "<?xml version=\"1.0\"?>\n".toList ++ (roundsTree columns).print ++ ['\n']

theorem lists_roundsTree (columns : List String) :
    Lists [roundsTree columns] (columns.map roundNode) := by
  refine ⟨[], _, _, _, [], rfl, by decide, by simp, ?_, ?_⟩
  · exact List.forall_mem_map.mpr fun _ _ => rfl
  · exact List.filter_eq_self.mpr (List.forall_mem_map.mpr fun _ _ => rfl)

theorem isHypothesisShaped_roundNode_iff {column : String} :
    IsHypothesisShaped 1 (roundNode column) ↔ column ∈ columnSpellings := by
  constructor
  · rintro ⟨-, -, ⟨text, spelled, n, sole, holds⟩, -, -⟩
    obtain rfl : leaf "column" [] column = n := List.singleton_injective sole
    cases holds
    exact spelled
  · intro spelled
    refine ⟨⟨"1", _, rfl, holdsText_leaf _ _ _⟩, ⟨"2", _, rfl, holdsText_leaf _ _ _⟩,
      ⟨column, spelled, _, rfl, holdsText_leaf _ _ _⟩, rfl, ?_⟩
    exact List.forall_mem_singleton.mpr ⟨"3", holdsText_leaf _ _ _⟩

theorem isPlain_roundNode {column : String} (plain : IsPlainText column) :
    (roundNode column).IsPlain := by
  have one : IsPlainText "1" := isPlainText_of_all (by decide) (by decide)
  have two : IsPlainText "2" := isPlainText_of_all (by decide) (by decide)
  have vote : (classNode (some "a") "3").IsPlain :=
    isPlain_classNode (by simp; decide) (isPlainText_of_all (by decide) (by decide))
  refine ⟨rfl, .of_all rfl (by decide), ⟨by simp, by simp⟩, Xml.nodesArePlain_of_all ?_⟩
  exact isPlain_roundParts one two plain (List.forall_mem_singleton.mpr ⟨vote, rfl⟩)

theorem parse_roundsText {columns : List String} (plain : ∀ c ∈ columns, IsPlainText c) :
    Xml.parse (roundsText columns) = .ok [roundsTree columns] := by
  refine Xml.parse_eq_ok ⟨rfl, .of_all rfl (by decide), ⟨by simp, by simp⟩, ?_⟩
  exact Xml.nodesArePlain_of_all <|
    List.forall_mem_map.mpr fun c hc => ⟨isPlain_roundNode (plain c hc), rfl⟩

/-- A round that is added is read behind the others. One whose column is not known is reported with
its place among all rounds, and it hides what is wrong behind it. -/
theorem ofText_append_rounds :
    (∃ all hs, ofText (roundsText ["topPosition", "AspectRatio"]) = .ok all ∧
        all.classes = smallModel.classes ∧ all.hypotheses = smallModel.hypotheses ++ hs ∧
        List.Forall₂ IsHypothesis [roundNode "AspectRatio"] hs) ∧
      (∃ front n back e, [roundNode "AspectRatio", roundNode "width"] = front ++ n :: back ∧
        hypothesis 1 0 n = .error e ∧
        ofText (roundsText ["topPosition", "AspectRatio", "width"]) =
          .error (e.later (1 + front.length))) ∧
      ofText (roundsText ["width", "height"]) = .error (.undefinedFeature 0 "width") := by
  have plain : ∀ c ∈ ["topPosition", "AspectRatio", "width", "height"], IsPlainText c :=
    forall_isPlainText_of_all (by decide)
  have parsed (columns : List String)
      (known : columns ⊆ ["topPosition", "AspectRatio", "width", "height"]) :
      Xml.parse (roundsText columns) = .ok [roundsTree columns] :=
    parse_roundsText fun c hc => plain c (known hc)
  have lists := lists_roundsTree
  have lists_append (columns more : List String) :
      Lists [roundsTree (columns ++ more)] (columns.map roundNode ++ more.map roundNode) := by
    rw [← List.map_append]
    exact lists (columns ++ more)
  have read : ofText (roundsText ["topPosition"]) = .ok smallModel := by
    rw [(lists _).ofText_eq (parsed _ (by simp))]
    decide +kernel
  have unread : ofText (roundsText ["width"]) = .error (.undefinedFeature 0 "width") := by
    rw [(lists _).ofText_eq (parsed _ (by simp))]
    decide +kernel
  have shaped : IsHypothesisShaped 1 (roundNode "AspectRatio") :=
    isHypothesisShaped_roundNode_iff.mpr (by decide)
  have unshaped : ¬IsHypothesisShaped 1 (roundNode "width") := fun shaped =>
    absurd (isHypothesisShaped_roundNode_iff.mp shaped) (by decide)
  refine ⟨?_, ?_, ?_⟩
  · have appended := ofText_append (by simp) (lists ["topPosition"])
      (lists_append ["topPosition"] ["AspectRatio"]) (parsed _ (by simp)) (parsed _ (by simp))
    exact (appended.2 smallModel read).1 (List.forall_mem_singleton.mpr shaped)
  · have appended := ofText_append (by simp) (lists ["topPosition"])
      (lists_append ["topPosition"] ["AspectRatio", "width"]) (parsed _ (by simp))
      (parsed _ (by simp))
    obtain ⟨front, n, back, e, same, -, fault, failed⟩ :=
      (appended.2 smallModel read).2 fun all => unshaped (all _ (by simp))
    exact ⟨front, n, back, e, same, fault, failed⟩
  · have appended := ofText_append (by simp) (lists ["width"])
      (lists_append ["width"] ["height"]) (parsed _ (by simp)) (parsed _ (by simp))
    exact (appended.1 _ unread).1

end StumpCompiler.Reader
