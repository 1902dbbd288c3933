import StumpCompiler.Proofs.Encoding
import StumpCompiler.Proofs.Reader.Writer
import StumpCompiler.Proofs.Workspace

/-! What is read of a written model is that model, from the text and from a file that holds it in
UTF-8. -/

namespace StumpCompiler

open Xml (Node Document IsPlainText IsPlainName)

/-- The texts stand for themselves between tags, and there is a vote for each of `classCount`
classes. -/
structure HypothesisText.IsWritable (classCount : ℕ) (h : HypothesisText) : Prop where
  alpha : IsPlainText h.alpha
  threshold : IsPlainText h.threshold
  column : h.column ∈ Reader.columnSpellings
  count : h.votes.length = classCount
  votes : ∀ vote ∈ h.votes, IsPlainText vote

namespace Reader

/-- The identifiers stand for themselves between quotes. -/
structure AreWritable (ids : List String) (hs : List HypothesisText) : Prop where
  ids_ne_nil : ids ≠ []
  hypotheses_ne_nil : hs ≠ []
  quotable : ∀ id ∈ ids, ∀ c ∈ id.toList, Xml.isValueChar c
  hypotheses : ∀ h ∈ hs, h.IsWritable ids.length

/-! The tree is plain. -/

theorem isPlain_leaf {tag text : String} {as : List Xml.Attribute} (named : IsPlainName tag)
    (attributes : Xml.ArePlain as) (plain : IsPlainText text) : (leaf tag as text).IsPlain := by
  simp [leaf, Node.IsPlain, Xml.NodesArePlain, named, attributes, plain]

theorem nodesArePlain_lines {indent : String} {ns : List Node}
    (blank : IsPlainText ("\n" ++ indent)) (last : IsPlainText ("\n" ++ outer))
    (plain : ∀ n ∈ ns, n.IsPlain ∧ n.isText = false) :
    Xml.NodesArePlain (lines indent ns ++ [.text ("\n" ++ outer)]) := by
  induction ns with
  | nil => simp [lines, Xml.NodesArePlain, Node.IsPlain, last]
  | cons n ns ih =>
    obtain ⟨first, markup⟩ := plain n (by simp)
    have parts : lines indent (n :: ns) ++ [.text ("\n" ++ outer)] =
        .text ("\n" ++ indent) :: n :: (lines indent ns ++ [.text ("\n" ++ outer)]) := rfl
    rw [parts]
    refine ⟨blank, ⟨first, ih fun m hm => plain m (by simp [hm]), ?_⟩, ?_⟩
    · intro text
      rw [markup] at text
      contradiction
    · rintro - _ ⟨⟩
      exact markup

theorem isPlain_block {tag outer inner : String} {ns : List Node} (named : IsPlainName tag)
    (blank : IsPlainText ("\n" ++ inner)) (last : IsPlainText ("\n" ++ outer))
    (plain : ∀ n ∈ ns, n.IsPlain ∧ n.isText = false) : (block tag outer inner ns).IsPlain :=
  ⟨rfl, named, ⟨by simp, by simp⟩, nodesArePlain_lines blank last plain⟩

theorem isPlainText_of_all {s : String} (ne_empty : s ≠ "") (all : s.toList.all Xml.isTextChar) :
    IsPlainText s :=
  ⟨ne_empty, List.all_eq_true.mp all⟩

theorem forall_isPlainText_of_all {ss : List String}
    (all : ∀ s ∈ ss, s ≠ "" ∧ s.toList.all Xml.isTextChar) : ∀ s ∈ ss, IsPlainText s :=
  fun s hs => isPlainText_of_all (all s hs).1 (all s hs).2

theorem isPlainText_of_mem_columnSpellings : ∀ column ∈ columnSpellings, IsPlainText column :=
  forall_isPlainText_of_all (by decide)

theorem isPlain_classNode {id? : Option String} {vote : String}
    (id : ∀ id ∈ id?, ∀ c ∈ id.toList, Xml.isValueChar c) (plain : IsPlainText vote) :
    (classNode id? vote).IsPlain := by
  refine isPlain_leaf (.of_all rfl (by decide)) ?_ plain
  cases id? with
  | none => exact ⟨by simp, by simp⟩
  | some i =>
    refine ⟨?_, by simp⟩
    simp only [Option.toList_some, List.map_cons, List.map_nil, List.mem_singleton, forall_eq]
    have named : IsPlainName "id" := .of_all rfl (by decide)
    have ordinary : "id" ≠ "xmlns" := by decide
    exact ⟨rfl, named, ordinary, id i rfl⟩

theorem isPlain_roundParts {alpha threshold column : String} {votes : List Node}
    (plain_alpha : IsPlainText alpha) (plain_threshold : IsPlainText threshold)
    (plain_column : IsPlainText column)
    (plain_votes : ∀ n ∈ votes, n.IsPlain ∧ n.isText = false) :
    ∀ n ∈ leaf "alpha" [] alpha :: leaf "threshold" [] threshold :: leaf "column" [] column :: votes,
      n.IsPlain ∧ n.isText = false := by
  have empty : Xml.ArePlain [] := ⟨by simp, by simp⟩
  simp only [List.forall_mem_cons]
  exact ⟨⟨isPlain_leaf (.of_all rfl (by decide)) empty plain_alpha, rfl⟩,
    ⟨isPlain_leaf (.of_all rfl (by decide)) empty plain_threshold, rfl⟩,
    ⟨isPlain_leaf (.of_all rfl (by decide)) empty plain_column, rfl⟩, plain_votes⟩

theorem isPlain_hypothesisNode {ids : List String} {h : HypothesisText} {n : ℕ}
    (plain_ids : ∀ id ∈ ids, ∀ c ∈ id.toList, Xml.isValueChar c) (ok : h.IsWritable n)
    (index : ℕ) : (hypothesisNode ids index h).IsPlain := by
  refine isPlain_block (.of_all rfl (by decide)) (isPlainText_of_all (by decide) (by decide))
    (isPlainText_of_all (by decide) (by decide)) ?_
  refine isPlain_roundParts ok.alpha ok.threshold (isPlainText_of_mem_columnSpellings _ ok.column) ?_
  intro c hc
  obtain ⟨slot, bound, rfl⟩ := List.mem_mapIdx.mp hc
  refine ⟨isPlain_classNode ?_ (ok.votes _ (List.getElem_mem bound)), rfl⟩
  intro id hid
  split at hid
  · exact plain_ids id (List.mem_of_getElem? hid)
  · contradiction

theorem isPlain_modelNode {ids : List String} {hs : List HypothesisText} (ok : AreWritable ids hs) :
    (modelNode ids hs).IsPlain := by
  refine isPlain_block (.of_all rfl (by decide)) (isPlainText_of_all (by decide) (by decide))
    (isPlainText_of_all (by decide) (by decide)) ?_
  intro n hn
  obtain ⟨index, bound, rfl⟩ := List.mem_mapIdx.mp hn
  exact ⟨isPlain_hypothesisNode ok.quotable (ok.hypotheses _ (List.getElem_mem bound)) index, rfl⟩

theorem parse_modelXml {ids : List String} {hs : List HypothesisText} (ok : AreWritable ids hs) :
    Xml.parse (modelXml ids hs).toList = .ok [modelNode ids hs] := by
  rw [toList_modelXml]
  exact Xml.parse_eq_ok (isPlain_modelNode ok)

/-! The tree describes the model. -/

theorem holdsText_leaf (tag text : String) (as : List Xml.Attribute) :
    HoldsText (leaf tag as text) text :=
  .intro _ _ _

theorem isNamed_leaf (t tag text : String) (as : List Xml.Attribute) :
    (leaf t as text).isNamed tag = (t == tag) :=
  rfl

theorem exists_eq_leaf {ids votes : List String} {index : ℕ} {n : Node}
    (h : n ∈ classNodesOf ids index votes) : ∃ as text, n = leaf "class" as text := by
  obtain ⟨slot, bound, rfl⟩ := List.mem_mapIdx.mp h
  exact ⟨_, _, rfl⟩

/-- The elements of a name below a hypothesis. -/
theorem elementsNamed_hypothesisNode (tag : String) (ids : List String) (index : ℕ)
    (h : HypothesisText) :
    elementsNamed tag (hypothesisNode ids index h) =
      (if "alpha" = tag then [leaf "alpha" [] h.alpha] else []) ++
      (if "threshold" = tag then [leaf "threshold" [] h.threshold] else []) ++
      (if "column" = tag then [leaf "column" [] h.column] else []) ++
      (if "class" = tag then classNodesOf ids index h.votes else []) := by
  have classes : (classNodesOf ids index h.votes).filter (Node.isNamed tag) =
      if "class" = tag then classNodesOf ids index h.votes else [] := by
    split
    · next same =>
      rw [List.filter_eq_self]
      intro n hn
      obtain ⟨as, text, rfl⟩ := exists_eq_leaf hn
      simp [isNamed_leaf, same]
    · next other =>
      rw [List.filter_eq_nil_iff]
      intro n hn
      obtain ⟨as, text, rfl⟩ := exists_eq_leaf hn
      simp [isNamed_leaf, other]
  rw [hypothesisNode, elementsNamed_block, filter_nodes, List.filter_cons, List.filter_cons,
    List.filter_cons, classes]
  · simp only [isNamed_leaf, beq_iff_eq]
    split_ifs <;> simp
  · simp only [List.forall_mem_cons, elementsNamed_leaf, true_and]
    intro n hn
    obtain ⟨as, text, rfl⟩ := exists_eq_leaf hn
    rfl

theorem hypothesisNodes_modelNode (ids : List String) (hs : List HypothesisText) :
    hypothesisNodes [modelNode ids hs] = hs.mapIdx (hypothesisNode ids) := by
  have root : hypothesisNodes [modelNode ids hs] = elementsNamed "weakhyp" (modelNode ids hs) := by
    have opened : Xml.nodes [modelNode ids hs] = modelNode ids hs :: (modelNode ids hs).descendants :=
      List.append_nil _
    rw [hypothesisNodes, opened]
    rfl
  rw [root, modelNode, elementsNamed_block, filter_nodes, List.filter_eq_self]
  · intro n hn
    obtain ⟨index, bound, rfl⟩ := List.mem_mapIdx.mp hn
    rfl
  · intro n hn
    obtain ⟨index, bound, rfl⟩ := List.mem_mapIdx.mp hn
    rw [elementsNamed_hypothesisNode]
    simp

theorem forall₂_mapIdx {α β γ : Type} {R : β → γ → Prop} {f : ℕ → α → β} {xs : List α}
    {ys : List γ} (h : List.Forall₂ (fun a c => ∀ i, R (f i a) c) xs ys) :
    List.Forall₂ R (xs.mapIdx f) ys := by
  induction xs generalizing f ys with
  | nil =>
    rw [List.forall₂_nil_left_iff.mp h]
    exact .nil
  | cons x xs ih =>
    obtain ⟨y, ys, first, rest, rfl⟩ := List.forall₂_cons_left_iff.mp h
    rw [List.mapIdx_cons]
    exact .cons (first 0) (ih (rest.imp fun a c hac i => hac (i + 1)))

theorem classNodes_hypothesisNode (ids : List String) (index : ℕ) (h : HypothesisText) :
    classNodes (hypothesisNode ids index h) = classNodesOf ids index h.votes := by
  rw [classNodes, elementsNamed_hypothesisNode]
  simp

theorem isHypothesis_hypothesisNode {g : Hypothesis} (resolved : g.feature.IsResolved)
    (ids : List String) (index : ℕ) :
    IsHypothesis (hypothesisNode ids index (.ofHypothesis g)) g := by
  refine ⟨⟨leaf "alpha" [] g.alpha, ?_, holdsText_leaf _ _ _⟩,
    ⟨leaf "threshold" [] g.threshold, ?_, holdsText_leaf _ _ _⟩,
    ⟨leaf "column" [] g.feature.column, ?_, holdsText_leaf _ _ _⟩, resolved, ?_⟩
  · rw [elementsNamed_hypothesisNode]
    simp [HypothesisText.ofHypothesis]
  · rw [elementsNamed_hypothesisNode]
    simp [HypothesisText.ofHypothesis]
  · rw [elementsNamed_hypothesisNode]
    simp [HypothesisText.ofHypothesis]
  · rw [classNodes_hypothesisNode]
    exact forall₂_mapIdx (List.forall₂_same.mpr fun vote _ slot => holdsText_leaf _ _ _)

/-- The classes of the first hypothesis name those of the model. -/
theorem forall₂_attribute? {ids votes : List String} (count : votes.length = ids.length) :
    List.Forall₂ (fun c id => c.attribute? "id" = some id) (classNodesOf ids 0 votes) ids := by
  rw [List.forall₂_iff_get]
  refine ⟨by simp [classNodesOf, count], fun slot _ bound => ?_⟩
  simp [classNodesOf, bound, classNode, leaf, Node.attribute?]

theorem describes_modelNode {m : Model} (resolved : ∀ h ∈ m.hypotheses, h.feature.IsResolved) :
    Describes [modelNode m.classes.ids (m.hypotheses.map .ofHypothesis)] m := by
  constructor
  · intro first hfirst
    rw [hypothesisNodes_modelNode] at hfirst
    obtain ⟨h, hs, eq⟩ := List.exists_cons_of_ne_nil m.hypotheses_ne_nil
    have count := m.votes_length h (by simp [eq])
    rw [eq, List.map_cons, List.mapIdx_cons, List.head?_cons, Option.mem_some_iff] at hfirst
    subst hfirst
    rw [classNodes_hypothesisNode]
    exact forall₂_attribute? count
  · rw [hypothesisNodes_modelNode]
    refine forall₂_mapIdx (List.forall₂_map_left_iff.mpr (List.forall₂_same.mpr ?_))
    exact fun h hh index => isHypothesis_hypothesisNode (resolved h hh) _ index

/-! Models. -/

theorem exists_hypotheses {hs : List HypothesisText}
    (spelled : ∀ h ∈ hs, h.column ∈ columnSpellings) :
    ∃ gs : List Hypothesis, gs.map .ofHypothesis = hs ∧ ∀ g ∈ gs, g.feature.IsResolved := by
  induction hs with
  | nil => exact ⟨[], rfl, by simp⟩
  | cons h hs ih =>
    rw [List.forall_mem_cons] at spelled
    obtain ⟨gs, rfl, resolved⟩ := ih spelled.2
    obtain ⟨r, column, first⟩ := mem_columnSpellings_iff.mp spelled.1
    refine ⟨⟨h.alpha, h.threshold, r, h.votes⟩ :: gs, ?_, List.forall_mem_cons.mpr ⟨first, resolved⟩⟩
    rw [List.map_cons, HypothesisText.ofHypothesis, column]

theorem exists_model {ids : List String} {hs : List HypothesisText} (ok : AreWritable ids hs) :
    ∃ m : Model, m.classes.ids = ids ∧ m.hypotheses.map .ofHypothesis = hs ∧
      ∀ h ∈ m.hypotheses, h.feature.IsResolved := by
  obtain ⟨gs, rfl, resolved⟩ := exists_hypotheses fun h hh => (ok.hypotheses h hh).column
  have count : ∀ g ∈ gs, g.votes.length = ids.length := fun g hg =>
    (ok.hypotheses _ (List.mem_map_of_mem hg)).count
  have ne_nil : gs ≠ [] := fun eq => ok.hypotheses_ne_nil (by rw [eq]; rfl)
  exact ⟨⟨⟨ids, ok.ids_ne_nil⟩, gs, ne_nil, count⟩, rfl, rfl, resolved⟩

theorem ofBytes_modelXml (ids : List String) (hs : List HypothesisText) :
    ofBytes (bytesOf (modelXml ids hs)) = ofText (modelXml ids hs).toList := by
  have text : (modelXml ids hs).toList = (Xml.XmlDeclaration.short none).text ++
      ('\n' :: (modelNode ids hs).print ++ ['\n']) := by
    have head : "<?xml version=\"1.0\"?>\n".toList =
        (Xml.XmlDeclaration.short none).text ++ ['\n'] := by decide
    rw [toList_modelXml, head]
    simp
  rw [ofBytes, bytesOf, text, Encoding.decode_encode (by simp) (by simp)]
  rfl

/-- A written model is read as the model with the same identifiers and the same texts, from its
document and from every file that holds the document in UTF-8. -/
theorem read_modelXml {ids : List String} {hs : List HypothesisText} (ok : AreWritable ids hs) :
    ∃ m : Model, m.classes.ids = ids ∧ m.hypotheses.map .ofHypothesis = hs ∧
      (∀ h ∈ m.hypotheses, FeatureRef.resolve? h.feature.column = some h.feature) ∧
      ofText (modelXml ids hs).toList = .ok m ∧
      ∀ (w : Workspace) (path : String), w.store.read path = .ok (bytesOf (modelXml ids hs)) →
        ((Generation.readModel path : Run Model) w).1 = .ok m := by
  obtain ⟨m, rfl, rfl, resolved⟩ := exists_model ok
  have read : ofText (modelXml m.classes.ids (m.hypotheses.map .ofHypothesis)).toList = .ok m :=
    (ofText_eq_ok_iff (parse_modelXml ok)).mpr (describes_modelNode resolved)
  refine ⟨m, rfl, rfl, resolved, read, fun w path holds => ?_⟩
  rw [Generation.readModel_eq, holds]
  exact (ofBytes_modelXml _ _).trans read

def smallTexts : List HypothesisText :=
  [⟨"0.75", "1.5", "AspectRatio", ["0.25", "-0.25"]⟩, ⟨"2", "0.5", "topPosition", ["3", "-3"]⟩]

def smallWorkspace : Workspace :=
  ⟨Store.initial.put ["work", "model.xml"] (.file (bytesOf (modelXml ["65", "6 6"] smallTexts))), []⟩

theorem read_modelXml_smallTexts :
    ∃ m : Model, m.classes.ids = ["65", "6 6"] ∧ m.hypotheses.map .ofHypothesis = smallTexts ∧
      ofText (modelXml ["65", "6 6"] smallTexts).toList = .ok m ∧
      ((Generation.readModel "model.xml" : Run Model) smallWorkspace).1 = .ok m := by
  have quotable : ∀ id ∈ ["65", "6 6"], id.toList.all Xml.isValueChar := by decide
  have plain : ∀ s ∈ ["0.75", "1.5", "0.25", "-0.25", "2", "0.5", "3", "-3"], IsPlainText s := by
    have all : ∀ s ∈ ["0.75", "1.5", "0.25", "-0.25", "2", "0.5", "3", "-3"],
        s ≠ "" ∧ s.toList.all Xml.isTextChar := by decide
    exact fun s hs => isPlainText_of_all (all s hs).1 (all s hs).2
  have ok : AreWritable ["65", "6 6"] smallTexts := by
    refine ⟨by decide, by simp [smallTexts], fun id hid => List.all_eq_true.mp (quotable id hid), ?_⟩
    simp only [smallTexts, List.forall_mem_cons]
    refine ⟨?_, ?_, by simp⟩
    · exact ⟨plain _ (by simp), plain _ (by simp), by decide, rfl, by simp [plain]⟩
    · exact ⟨plain _ (by simp), plain _ (by simp), by decide, rfl, by simp [plain]⟩
  obtain ⟨m, ids, texts, -, read, read_file⟩ := read_modelXml ok
  exact ⟨m, ids, texts, read, read_file smallWorkspace "model.xml" rfl⟩

end Reader

end StumpCompiler
