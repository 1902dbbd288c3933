import StumpCompiler.Proofs.Reader.Nesting
import StumpCompiler.Proofs.Reader.Sequence

/-! Markup that means nothing to the reader. It may be added anywhere outside the parts of
hypotheses, and around anything there: the same elements are found, in the same order. -/

namespace StumpCompiler.Reader

open Xml (Node Document)

/-- The names that the reader looks for. -/
def tags : List String := "weakhyp" :: partTags

/-- No element of the tree is one that the reader looks for: a comment, an instruction, a text, or
an element with a foreign name and nothing but foreign trees inside. -/
def IsForeign (n : Node) : Prop :=
  ∀ x ∈ n.subtree, ∀ tag ∈ tags, x.isNamed tag = false

/-- One change of foreign markup among trees side by side: a tree is added, trees in a row are put
into a new element, or there is such a change inside an element that is no part of a hypothesis. -/
inductive Marks : List Node → List Node → Prop where
  | insert (front back : List Node) {n : Node} (foreign : IsForeign n) :
    Marks (front ++ back) (front ++ n :: back)
  | wrap (front run back : List Node) (name : Xml.Name) (attributes : List Xml.Attribute)
    (foreign : name.localName ∉ tags) :
    Marks (front ++ run ++ back) (front ++ .element name attributes run :: back)
  | inside (front back : List Node) {name : Xml.Name} (attributes : List Xml.Attribute)
    {ns ns' : List Node} (no_part : name.localName ∉ partTags) (change : Marks ns ns') :
    Marks (front ++ .element name attributes ns :: back)
      (front ++ .element name attributes ns' :: back)

/-- The elements of two hypotheses are the same, kind by kind. -/
def HaveSameParts (n n' : Node) : Prop :=
  ∀ tag ∈ partTags, elementsNamed tag n' = elementsNamed tag n

/-- The reader finds the same in the trees `ns'` as in `ns`. -/
structure FindsSame (ns ns' : List Node) : Prop where
  parts : ∀ tag ∈ partTags,
    (Xml.nodes ns').filter (Node.isNamed tag) = (Xml.nodes ns).filter (Node.isNamed tag)
  hypotheses : List.Forall₂ HaveSameParts ((Xml.nodes ns).filter (Node.isNamed "weakhyp"))
    ((Xml.nodes ns').filter (Node.isNamed "weakhyp"))

variable {ns ns' ms ms' : List Node} {n n' : Node} {name : Xml.Name}
  {attributes : List Xml.Attribute} {d d' : Document}

/-! What is found. -/

theorem FindsSame.refl (ns : List Node) : FindsSame ns ns :=
  ⟨fun _ _ => rfl, List.forall₂_same.mpr fun _ _ _ _ => rfl⟩

theorem FindsSame.append (h : FindsSame ms ms') (h' : FindsSame ns ns') :
    FindsSame (ms ++ ns) (ms' ++ ns') := by
  refine ⟨fun tag part => ?_, ?_⟩
  · rw [Xml.nodes_append, Xml.nodes_append, List.filter_append, List.filter_append,
      h.parts tag part, h'.parts tag part]
  · rw [Xml.nodes_append, Xml.nodes_append, List.filter_append, List.filter_append]
    exact List.rel_append h.hypotheses h'.hypotheses

theorem filter_of_isForeign {tag : String} (foreign : IsForeign n) (known : tag ∈ tags) :
    (Xml.nodes [n]).filter (Node.isNamed tag) = [] := by
  rw [List.filter_eq_nil_iff]
  intro x hx
  rw [Xml.nodes, Xml.nodes, List.append_nil] at hx
  simp [foreign x hx tag known]

theorem FindsSame.of_isForeign (foreign : IsForeign n) : FindsSame [] [n] := by
  refine ⟨fun tag part => ?_, ?_⟩
  · rw [filter_of_isForeign foreign (List.mem_cons_of_mem _ part)]
    rfl
  · rw [filter_of_isForeign foreign List.mem_cons_self]
    exact .nil

theorem filter_nodes_element (tag : String) :
    (Xml.nodes [.element name attributes ns]).filter (Node.isNamed tag) =
      if name.localName = tag then
        .element name attributes ns :: (Xml.nodes ns).filter (Node.isNamed tag)
      else (Xml.nodes ns).filter (Node.isNamed tag) := by
  rw [Xml.nodes, Xml.nodes, List.append_nil, Node.subtree, List.filter_cons]
  simp [Node.isNamed]

/-- An element that is no part is found only if it is a hypothesis. -/
theorem FindsSame.wrap (foreign : name.localName ∉ tags) :
    FindsSame ns [.element name attributes ns] := by
  have other {tag : String} (known : tag ∈ tags) : name.localName ≠ tag :=
    fun same => foreign (same ▸ known)
  refine ⟨fun tag part => ?_, ?_⟩
  · rw [filter_nodes_element, if_neg (other (List.mem_cons_of_mem _ part))]
  · rw [filter_nodes_element, if_neg (other List.mem_cons_self)]
    exact (FindsSame.refl ns).hypotheses

theorem FindsSame.inside (no_part : name.localName ∉ partTags) (h : FindsSame ns ns') :
    FindsSame [.element name attributes ns] [.element name attributes ns'] := by
  have other {tag : String} (part : tag ∈ partTags) : name.localName ≠ tag :=
    fun same => no_part (same ▸ part)
  refine ⟨fun tag part => ?_, ?_⟩
  · rw [filter_nodes_element, filter_nodes_element, if_neg (other part), if_neg (other part),
      h.parts tag part]
  · rw [filter_nodes_element, filter_nodes_element]
    split
    · exact .cons h.parts h.hypotheses
    · exact h.hypotheses

/-- Changes of foreign markup go by unseen: every search finds the same elements in the same
order. -/
theorem Marks.findsSame (h : Marks ns ns') : FindsSame ns ns' := by
  induction h with
  | insert front back foreign =>
    exact (FindsSame.refl front).append ((FindsSame.of_isForeign foreign).append (.refl back))
  | wrap front run back name attributes foreign =>
    rw [List.append_assoc]
    exact (FindsSame.refl front).append ((FindsSame.wrap foreign).append (.refl back))
  | inside front back attributes no_part _ ih =>
    exact (FindsSame.refl front).append ((FindsSame.inside no_part ih).append (.refl back))

/-! What is read. -/

theorem scalar_congr {i : ℕ} {tag : String} (same : elementsNamed tag n' = elementsNamed tag n) :
    scalar i tag n' = scalar i tag n := by
  rw [scalar, scalar, same]

theorem HaveSameParts.hypothesis_eq (h : HaveSameParts n n') (count i : ℕ) :
    hypothesis count i n' = hypothesis count i n := by
  rw [hypothesis, hypothesis, scalar_congr (h "alpha" (by decide)),
    scalar_congr (h "threshold" (by decide)), scalar_congr (h "column" (by decide)),
    h "class" (by decide)]

theorem HaveSameParts.classSet_eq (h : HaveSameParts n n') : classSet n' = classSet n := by
  rw [classSet, classSet, h "class" (by decide)]

theorem map_classSet_head? (h : List.Forall₂ HaveSameParts ns ns') :
    ns'.head?.map classSet = ns.head?.map classSet := by
  cases h with
  | nil => rfl
  | cons first _ => exact congrArg some first.classSet_eq

theorem FindsSame.model_eq (h : FindsSame d d') : model d' = model d := by
  rw [model_eq_modelOf, model_eq_modelOf, hypothesisNodes, hypothesisNodes]
  exact modelOf_congr (h.hypotheses.imp fun _ _ same => same.hypothesis_eq)
    (map_classSet_head? h.hypotheses)

/-- However much foreign markup is added to a document or taken away, and wherever outside the parts
of its hypotheses, it is read as before: as the same model, or with the same fault. A text that is
joined with another is one text taken away and another one added. -/
theorem model_of_marks (h : Relation.EqvGen Marks d d') :
    model d' = model d ∧ ∀ text text', Xml.parse text = .ok d → Xml.parse text' = .ok d' →
      ofText text' = ofText text := by
  have same : model d' = model d := by
    induction h with
    | rel _ _ change => exact change.findsSame.model_eq
    | refl => rfl
    | symm _ _ _ ih => exact ih.symm
    | trans _ _ _ _ _ first second => exact second.trans first
  refine ⟨same, fun text text' parsed parsed' => ?_⟩
  rw [ofText, ofText, parsed, parsed']
  exact same

def remarkedDocument : String :=
  "<m><!--x--><weakhyp><p><alpha>1</alpha></p><q><threshold>2</threshold></q>" ++
    "<column>topPosition</column><class id=\"a\">3</class></weakhyp></m>"

/-- The small document with a comment, and with an element around the threshold. -/
def remarkedTree : Document :=
  [.element ⟨"", "m"⟩ [] [.comment "x", .element ⟨"", "weakhyp"⟩ [] [
    .element ⟨"", "p"⟩ [] [.element ⟨"", "alpha"⟩ [] [.text "1"]],
    .element ⟨"", "q"⟩ [] [.element ⟨"", "threshold"⟩ [] [.text "2"]],
    .element ⟨"", "column"⟩ [] [.text "topPosition"],
    .element ⟨"", "class"⟩ [⟨⟨"", "id"⟩, "a"⟩] [.text "3"]]]]

theorem marks_remarkedTree : Relation.EqvGen Marks smallTree remarkedTree := by
  have comment : IsForeign (.comment "x") := by
    intro x hx tag _
    obtain rfl := List.mem_singleton.mp hx
    rfl
  have wrapped := Marks.wrap [.element ⟨"", "p"⟩ [] [.element ⟨"", "alpha"⟩ [] [.text "1"]]]
    [.element ⟨"", "threshold"⟩ [] [.text "2"]]
    [.element ⟨"", "column"⟩ [] [.text "topPosition"],
      .element ⟨"", "class"⟩ [⟨⟨"", "id"⟩, "a"⟩] [.text "3"]]
    ⟨"", "q"⟩ [] (by decide)
  refine .trans _ _ _ (.rel _ _ (.inside [] [] [] (by decide) (.insert [] _ comment)))
    (.rel _ _ (.inside [] [] [] (by decide) (.inside [.comment "x"] [] [] (by decide) wrapped)))

theorem model_of_marks_remarked :
    Relation.EqvGen Marks smallTree remarkedTree ∧
      ofText remarkedDocument.toList = .ok smallModel := by
  have parsed : Xml.parse remarkedDocument.toList = .ok remarkedTree := by decide +kernel
  refine ⟨marks_remarkedTree, ?_⟩
  rw [(model_of_marks marks_remarkedTree).2 _ _ parse_smallDocument parsed, ofText_smallDocument]

end StumpCompiler.Reader
