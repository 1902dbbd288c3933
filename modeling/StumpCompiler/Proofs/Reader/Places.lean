import StumpCompiler.Proofs.Reader.RoundTrip
import StumpCompiler.Proofs.Reader.Sequence
import StumpCompiler.Proofs.Xml.Tree

/-! Votes are credited by place: the vote of a hypothesis for a class is the text of the `class`
element whose number is the slot of the class, whatever identifier the element carries. Identifiers
are read in the first hypothesis alone, and other attributes nowhere. -/

namespace StumpCompiler

namespace Xml

mutual

/-- A tree without its attributes. -/
def Node.bare : Node → Node
  | .element name _ children => .element name [] (bareAll children)
  | .text content => .text content
  | .comment content => .comment content
  | .instruction target content => .instruction target content

def bareAll : List Node → List Node
  | [] => []
  | n :: ns => n.bare :: bareAll ns

end

mutual

theorem Node.subtree_bare : ∀ n : Node, n.bare.subtree = n.subtree.map Node.bare
  | .element name attributes children => by
    simp [Node.bare, Node.subtree, nodes_bareAll children]
  | .text _ | .comment _ | .instruction _ _ => rfl

theorem nodes_bareAll : ∀ ns : List Node, nodes (bareAll ns) = (nodes ns).map Node.bare
  | [] => rfl
  | n :: ns => by
    simp [bareAll, nodes, Node.subtree_bare n, nodes_bareAll ns]

end

@[simp]
theorem Node.isNamed_bare (tag : String) (n : Node) : n.bare.isNamed tag = n.isNamed tag := by
  cases n <;> rfl

theorem Node.descendants_bare (n : Node) : n.bare.descendants = n.descendants.map Node.bare := by
  cases n with
  | element name attributes children => exact nodes_bareAll children
  | text | comment | instruction => rfl

@[simp]
theorem Node.singleText?_bare (n : Node) : n.bare.singleText? = n.singleText? := by
  match n with
  | .element _ _ [] => rfl
  | .element _ _ [.text _] => rfl
  | .element _ _ [.element ..] | .element _ _ [.comment _] | .element _ _ [.instruction ..] => rfl
  | .element _ _ (_ :: _ :: _) => simp [Node.bare, bareAll, Node.singleText?]
  | .text _ | .comment _ | .instruction _ _ => rfl

end Xml

namespace Reader

open Xml (Node Document IsPlainText bareAll)

/-- The `class` element with the number `slot` of hypothesis `k`. -/
def classNode? (d : Document) (k slot : ℕ) : Option Node :=
  (hypothesisNodes d)[k]?.bind fun n => (classNodes n)[slot]?

/-- The identifiers of the first hypothesis, element by element. -/
def firstIds (d : Document) : List (Option String) :=
  (hypothesisNodes d).head?.elim [] fun n => (classNodes n).map (Node.attribute? "id")

/-- The vote of hypothesis `k` for the class in `slot`. -/
def vote? (m : Model) (k slot : ℕ) : Option String :=
  m.hypotheses[k]?.bind fun h => h.votes[slot]?

/-- Which element of a document decides which part of a model. -/
structure ReadsByPlace (d : Document) (m : Model) : Prop where
  complete : ∀ k slot,
    (classNode? d k slot).isSome ↔ k < m.hypothesisCount ∧ slot < m.classCount
  registered : ∀ slot c, classNode? d 0 slot = some c →
    ∃ id, c.attribute? "id" = some id ∧ m.classes.id? slot = some id
  credited : ∀ k slot c, classNode? d k slot = some c →
    ∃ vote, HoldsText c vote ∧ vote? m k slot = some vote

/-! What the reader makes of an element without attributes. -/

theorem elementsNamed_bare (tag : String) (n : Node) :
    elementsNamed tag n.bare = (elementsNamed tag n).map Node.bare := by
  rw [elementsNamed, elementsNamed, Node.descendants_bare, List.filter_map]
  congr 2
  funext x
  exact Node.isNamed_bare tag x

theorem hypothesisNodes_bareAll (d : Document) :
    hypothesisNodes (bareAll d) = (hypothesisNodes d).map Node.bare := by
  rw [hypothesisNodes, hypothesisNodes, Xml.nodes_bareAll, List.filter_map]
  congr 2
  funext x
  exact Node.isNamed_bare "weakhyp" x

theorem soleText_bare (i : ℕ) (tag : String) (n : Node) :
    soleText i tag n.bare = soleText i tag n := by
  rw [soleText, soleText, Node.singleText?_bare]

theorem scalar_bare (i : ℕ) (tag : String) (n : Node) : scalar i tag n.bare = scalar i tag n := by
  rw [scalar, scalar, elementsNamed_bare]
  match elementsNamed tag n with
  | [] => rfl
  | [element] => exact soleText_bare i tag element
  | _ :: _ :: _ => simp

theorem voteTexts_map_bare (i : ℕ) (ns : List Node) :
    voteTexts i (ns.map Node.bare) = voteTexts i ns := by
  induction ns with
  | nil => rfl
  | cons n ns ih => rw [List.map_cons, voteTexts, voteTexts, soleText_bare, ih]

theorem hypothesis_bare (count i : ℕ) (n : Node) :
    hypothesis count i n.bare = hypothesis count i n := by
  simp only [hypothesis, scalar_bare, elementsNamed_bare, voteTexts_map_bare]

theorem classIds_congr {k : ℕ} {ns ns' : List Node}
    (same : ns.map (Node.attribute? "id") = ns'.map (Node.attribute? "id")) :
    classIds k ns = classIds k ns' := by
  induction ns generalizing k ns' with
  | nil =>
    obtain rfl : ns' = [] := by simpa using same.symm
    rfl
  | cons n ns ih =>
    cases ns' with
    | nil => simp at same
    | cons n' ns' =>
      rw [List.map_cons, List.map_cons, List.cons.injEq] at same
      rw [classIds, classIds, same.1, ih same.2]

/-! Documents that differ in attributes. -/

variable {d d' : Document} {m : Model}

theorem classSet_congr {n n' : Node}
    (ids : (classNodes n').map (Node.attribute? "id") = (classNodes n).map (Node.attribute? "id")) :
    classSet n' = classSet n := by
  have registry := classIds_congr (k := 0) ids
  rw [classNodes, classNodes] at registry
  rw [classSet, classSet, registry]

theorem model_congr (same : bareAll d' = bareAll d) (ids : firstIds d' = firstIds d) :
    model d' = model d := by
  have bare : List.Forall₂ (fun n n' => n.bare = n'.bare) (hypothesisNodes d)
      (hypothesisNodes d') := by
    rw [← List.forall₂_map_right_iff, ← List.forall₂_map_left_iff, ← hypothesisNodes_bareAll,
      ← hypothesisNodes_bareAll, same]
    exact List.forall₂_refl _
  -- the registry is the one part that attributes have a say in
  have classes : (hypothesisNodes d').head?.map classSet = (hypothesisNodes d).head?.map classSet := by
    rw [firstIds, firstIds] at ids
    revert bare ids
    generalize hypothesisNodes d = ns, hypothesisNodes d' = ns'
    rintro ids (_ | _)
    · rfl
    · exact congrArg some (classSet_congr ids)
  rw [model_eq_modelOf, model_eq_modelOf]
  refine modelOf_congr (bare.imp fun n n' same count i => ?_) classes
  rw [← hypothesis_bare, ← same, hypothesis_bare]

/-! Models. -/

theorem exists_getElem?_of_forall₂ {α β : Type} {R : α → β → Prop} {xs : List α} {ys : List β}
    {x : α} {i : ℕ} (all : List.Forall₂ R xs ys) (at_i : xs[i]? = some x) :
    ∃ y, ys[i]? = some y ∧ R x y := by
  obtain ⟨inside, rfl⟩ := List.getElem?_eq_some_iff.mp at_i
  obtain ⟨length, each⟩ := List.forall₂_iff_get.mp all
  exact ⟨_, List.getElem?_eq_getElem (length ▸ inside), each i inside (length ▸ inside)⟩

theorem Describes.readsByPlace (h : Describes d m) : ReadsByPlace d m := by
  have count : (hypothesisNodes d).length = m.hypothesisCount := h.hypotheses.length_eq
  refine ⟨fun k slot => ⟨fun is => ?_, fun ⟨hk, hslot⟩ => ?_⟩, fun slot c hc => ?_,
    fun k slot c hc => ?_⟩
  · obtain ⟨c, hc⟩ := Option.isSome_iff_exists.mp is
    obtain ⟨n, hn, at_slot⟩ := Option.bind_eq_some_iff.mp hc
    have size := h.length_classNodes n (List.mem_of_getElem? hn)
    exact ⟨(List.getElem?_eq_some_iff.mp hn).1.trans_eq count,
      (List.getElem?_eq_some_iff.mp at_slot).1.trans_eq size⟩
  · rw [← count] at hk
    have size := h.length_classNodes _ (List.getElem_mem hk)
    rw [Model.classCount, ← size] at hslot
    simp [classNode?, List.getElem?_eq_getElem hk, List.getElem?_eq_getElem hslot]
  · obtain ⟨first, hfirst, at_slot⟩ := Option.bind_eq_some_iff.mp hc
    obtain ⟨id, registered, carried⟩ := exists_getElem?_of_forall₂
      (h.ids first (by rwa [List.head?_eq_getElem?])) at_slot
    exact ⟨id, carried, registered⟩
  · obtain ⟨n, hn, at_slot⟩ := Option.bind_eq_some_iff.mp hc
    obtain ⟨g, at_k, is⟩ := exists_getElem?_of_forall₂ h.hypotheses hn
    obtain ⟨vote, voted, holds⟩ := exists_getElem?_of_forall₂ is.votes at_slot
    exact ⟨vote, holds, Option.bind_eq_some_iff.mpr ⟨g, at_k, voted⟩⟩

/-- In a document that is read, the classes of the first hypothesis carry the identifiers of the
registry, and a vote goes to the class with the same place, whatever identifier stands beside it.
Of two documents that are equal but for attributes, and have the same identifiers in the first
hypothesis, both are read as one model or both fail for one reason. -/
theorem ofText_by_place {text : List Char} (well_formed : Xml.parse text = .ok d) :
    (∀ m, ofText text = .ok m → ReadsByPlace d m) ∧
      ∀ text' d', Xml.parse text' = .ok d' → bareAll d' = bareAll d → firstIds d' = firstIds d →
        ofText text' = ofText text := by
  refine ⟨fun m read => ((ofText_eq_ok_iff well_formed).mp read).readsByPlace,
    fun text' d' well_formed' same ids => ?_⟩
  rw [ofText, ofText, well_formed, well_formed']
  exact model_congr same ids

/-- Two rounds for the classes `a` and `b`; in the second one their votes are marked with other
identifiers. -/
def markedDocument (first second : String) : String :=
  "<m><weakhyp><alpha>1</alpha><threshold>2</threshold><column>topPosition</column>" ++
    "<class id=\"a\">3</class><class id=\"b\">4</class></weakhyp>" ++
    "<weakhyp><alpha>5</alpha><threshold>6</threshold><column>TopPosition</column>" ++
    "<class id=\"" ++ first ++ "\">7</class><class id=\"" ++ second ++ "\">8</class>" ++
    "</weakhyp></m>"

def markedTree (first second : String) : Document :=
  let part (tag text : String) : Node := .element ⟨"", tag⟩ [] [.text text]
  let vote (id text : String) : Node := .element ⟨"", "class"⟩ [⟨⟨"", "id"⟩, id⟩] [.text text]
  [.element ⟨"", "m"⟩ [] [
    .element ⟨"", "weakhyp"⟩ [] [part "alpha" "1", part "threshold" "2",
      part "column" "topPosition", vote "a" "3", vote "b" "4"],
    .element ⟨"", "weakhyp"⟩ [] [part "alpha" "5", part "threshold" "6",
      part "column" "TopPosition", vote first "7", vote second "8"]]]

def markedModel : Model where
  classes := ⟨["a", "b"], by decide⟩
  hypotheses := [
    ⟨"1", "2", ⟨.topPosition, "topPosition"⟩, ["3", "4"]⟩,
    ⟨"5", "6", ⟨.topPosition, "TopPosition"⟩, ["7", "8"]⟩]
  hypotheses_ne_nil := by decide
  votes_length := by decide

-- the pieces of the document are spelled out, character by character
set_option maxRecDepth 4096 in
theorem toList_markedDocument (first second : String) :
    (markedDocument first second).toList = Xml.printAll (markedTree first second) := by
  unfold markedDocument
  simp only [String.toList_append, List.append_assoc]
  simp [markedTree, Xml.printAll, Node.print, Xml.printTagRest, Xml.Attribute.print, Xml.quoted]

theorem isPlain_markedRound {alpha threshold column : String} {votes : List (String × String)}
    (quotable : ∀ v ∈ votes, ∀ c ∈ v.1.toList, Xml.isValueChar c)
    (plain : ∀ s ∈ alpha :: threshold :: column :: votes.map Prod.snd, IsPlainText s) :
    (Node.element ⟨"", "weakhyp"⟩ [] (leaf "alpha" [] alpha :: leaf "threshold" [] threshold ::
      leaf "column" [] column :: votes.map fun v => classNode (some v.1) v.2)).IsPlain := by
  simp only [List.forall_mem_cons, List.forall_mem_map] at plain
  obtain ⟨plain_alpha, plain_threshold, plain_column, plain_votes⟩ := plain
  refine ⟨rfl, .of_all rfl (by decide), ⟨by simp, by simp⟩, Xml.nodesArePlain_of_all ?_⟩
  refine isPlain_roundParts plain_alpha plain_threshold plain_column ?_
  refine List.forall_mem_map.mpr fun v hv => ⟨isPlain_classNode ?_ (plain_votes v hv), rfl⟩
  simpa using quotable v hv

theorem parse_markedDocument {first second : String}
    (quotable : ∀ c ∈ first.toList, Xml.isValueChar c)
    (quotable' : ∀ c ∈ second.toList, Xml.isValueChar c) :
    Xml.parse (markedDocument first second).toList = .ok (markedTree first second) := by
  have registered : ∀ v ∈ [("a", "3"), ("b", "4")], ∀ c ∈ v.1.toList, Xml.isValueChar c := by
    simp
    decide
  have marked : ∀ v ∈ [(first, "7"), (second, "8")], ∀ c ∈ v.1.toList, Xml.isValueChar c := by
    simpa using ⟨quotable, quotable'⟩
  have texts : ∀ s ∈ ["1", "2", "topPosition", "3", "4"], IsPlainText s :=
    forall_isPlainText_of_all (by decide)
  have more : ∀ s ∈ ["5", "6", "TopPosition", "7", "8"], IsPlainText s :=
    forall_isPlainText_of_all (by decide)
  have plain : Xml.NodesArePlain (markedTree first second) := by
    refine ⟨⟨rfl, .of_all rfl (by decide), ⟨by simp, by simp⟩, ?_⟩, trivial, nofun⟩
    exact Xml.nodesArePlain_of_all <| List.forall_mem_cons.mpr
      ⟨⟨isPlain_markedRound registered texts, rfl⟩,
        List.forall_mem_singleton.mpr ⟨isPlain_markedRound marked more, rfl⟩⟩
  rw [toList_markedDocument]
  exact Xml.parse_printAll plain

theorem parse_swapped :
    Xml.parse (markedDocument "b" "a").toList = .ok (markedTree "b" "a") :=
  parse_markedDocument (List.all_eq_true.mp (by decide)) (List.all_eq_true.mp (by decide))

theorem ofText_swapped : ofText (markedDocument "b" "a").toList = .ok markedModel := by
  rw [ofText, parse_swapped]
  decide +kernel

theorem ofText_by_place_marked :
    ReadsByPlace (markedTree "b" "a") markedModel ∧
      ofText (markedDocument "c" "c").toList = ofText (markedDocument "b" "a").toList := by
  have unknown : Xml.parse (markedDocument "c" "c").toList = .ok (markedTree "c" "c") :=
    parse_markedDocument (List.all_eq_true.mp (by decide)) (List.all_eq_true.mp (by decide))
  obtain ⟨places, unread⟩ := ofText_by_place parse_swapped
  exact ⟨places _ ofText_swapped, unread _ _ unknown rfl (by decide +kernel)⟩

/-- The vote that is marked with `b` counts for `a`. -/
theorem mismarked_vote_counts :
    ∃ c, Xml.parse (markedDocument "b" "a").toList = .ok (markedTree "b" "a") ∧
      ofText (markedDocument "b" "a").toList = .ok markedModel ∧
      classNode? (markedTree "b" "a") 1 0 = some c ∧ c.attribute? "id" = some "b" ∧
      markedModel.classes.id? 0 = some "a" :=
  ⟨.element ⟨"", "class"⟩ [⟨⟨"", "id"⟩, "b"⟩] [.text "7"], parse_swapped, ofText_swapped,
    by decide +kernel, by decide, by decide⟩

end Reader

end StumpCompiler
