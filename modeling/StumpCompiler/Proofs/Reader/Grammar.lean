import StumpCompiler.Proofs.Except
import StumpCompiler.Proofs.Feature
import StumpCompiler.Proofs.Xml.Tree
import StumpCompiler.Reader

/-! Which documents are models, in terms of their trees alone, and which model each of them is. Every
part of the reader has its own equivalence. -/

namespace StumpCompiler.Reader

open Xml (Node Document)

/-- An element with exactly one child, which is the text `t`. -/
inductive HoldsText : Node → String → Prop where
  | intro (name : Xml.Name) (attributes : List Xml.Attribute) (t : String) :
    HoldsText (.element name attributes [.text t]) t

/-- Exactly one element below `n` is named `tag`, and it holds the text `t`. -/
def IsSole (tag : String) (n : Node) (t : String) : Prop :=
  ∃ element, elementsNamed tag n = [element] ∧ HoldsText element t

/-- The elements that are hypotheses, in document order. -/
def hypothesisNodes (d : Document) : List Node :=
  (Xml.nodes d).filter (Node.isNamed "weakhyp")

def classNodes (n : Node) : List Node :=
  elementsNamed "class" n

/-- The ways in which a column may be spelled. -/
def columnSpellings : List String :=
  ["AspectRatio", "TopPosition", "BottomPosition", "aspectRatio", "topPosition", "bottomPosition"]

/-- What belongs to a hypothesis in a model with `count` classes stands below `n`. -/
structure IsHypothesisShaped (count : ℕ) (n : Node) : Prop where
  alpha : ∃ t, IsSole "alpha" n t
  threshold : ∃ t, IsSole "threshold" n t
  column : ∃ t ∈ columnSpellings, IsSole "column" n t
  count : (classNodes n).length = count
  votes : ∀ c ∈ classNodes n, ∃ t, HoldsText c t

/-- The document has the shape of a model. -/
structure IsModelShaped (d : Document) : Prop where
  some_hypothesis : hypothesisNodes d ≠ []
  first : ∀ first ∈ (hypothesisNodes d).head?,
    classNodes first ≠ [] ∧ (∀ c ∈ classNodes first, ∃ id, c.attribute? "id" = some id) ∧
      ∀ n ∈ hypothesisNodes d, IsHypothesisShaped (classNodes first).length n

/-- The hypothesis that stands below `n`, text for text. -/
structure IsHypothesis (n : Node) (h : Hypothesis) : Prop where
  alpha : IsSole "alpha" n h.alpha
  threshold : IsSole "threshold" n h.threshold
  column : IsSole "column" n h.feature.column
  feature : h.feature.IsResolved
  votes : List.Forall₂ HoldsText (classNodes n) h.votes

/-- The model that a document describes. -/
structure Describes (d : Document) (m : Model) : Prop where
  ids : ∀ first ∈ (hypothesisNodes d).head?,
    List.Forall₂ (fun c id => c.attribute? "id" = some id) (classNodes first) m.classes.ids
  hypotheses : List.Forall₂ IsHypothesis (hypothesisNodes d) m.hypotheses

/-- Elements of a name are all at the top if there are none further below. -/
theorem filter_nodes {tag : String} {ns : List Node}
    (below : ∀ n ∈ ns, elementsNamed tag n = []) :
    (Xml.nodes ns).filter (Node.isNamed tag) = ns.filter (Node.isNamed tag) := by
  induction ns with
  | nil => rfl
  | cons n ns ih =>
    have none_below : n.descendants.filter (Node.isNamed tag) = [] := below n (by simp)
    rw [Xml.nodes, Node.subtree_eq, List.cons_append, List.filter_cons, List.filter_cons,
      List.filter_append, none_below, List.nil_append, ih fun m hm => below m (by simp [hm])]

/-! Texts. -/

theorem singleText?_eq_some_iff {n : Node} {t : String} :
    n.singleText? = some t ↔ HoldsText n t := by
  constructor
  · intro h
    unfold Node.singleText? at h
    split at h
    · obtain rfl := Option.some.inj h
      exact .intro _ _ _
    · contradiction
  · rintro ⟨⟩
    rfl

theorem soleText_eq_ok_iff {i : ℕ} {tag t : String} {n : Node} :
    soleText i tag n = .ok t ↔ HoldsText n t := by
  rw [← singleText?_eq_some_iff, soleText]
  cases n.singleText? <;> simp

theorem scalar_eq_ok_iff {i : ℕ} {tag t : String} {n : Node} :
    scalar i tag n = .ok t ↔ IsSole tag n t := by
  unfold scalar IsSole
  split
  · next none_left => simp [none_left]
  · next element only => simp [only, soleText_eq_ok_iff]
  · next several not_none not_one =>
    refine ⟨fun h => by simp at h, ?_⟩
    rintro ⟨element, only, -⟩
    exact absurd only (not_one element)

theorem voteTexts_eq_ok_iff {i : ℕ} {ns : List Node} {ts : List String} :
    voteTexts i ns = .ok ts ↔ List.Forall₂ HoldsText ns ts := by
  induction ns generalizing ts with
  | nil => simp [voteTexts, eq_comm]
  | cons n ns ih =>
    rw [voteTexts, bind_eq_ok_iff, List.forall₂_cons_left_iff]
    constructor
    · rintro ⟨t, first, more⟩
      obtain ⟨ts', rest, same⟩ := bind_eq_ok_iff.mp more
      exact ⟨t, ts', soleText_eq_ok_iff.mp first, ih.mp rest, (Except.ok.inj same).symm⟩
    · rintro ⟨t, ts', first, rest, rfl⟩
      exact ⟨t, soleText_eq_ok_iff.mpr first, bind_eq_ok_iff.mpr ⟨ts', ih.mpr rest, rfl⟩⟩

theorem classIds_eq_ok_iff {k : ℕ} {ns : List Node} {ids : List String} :
    classIds k ns = .ok ids ↔ List.Forall₂ (fun c id => c.attribute? "id" = some id) ns ids := by
  induction ns generalizing k ids with
  | nil => simp [classIds, eq_comm]
  | cons n ns ih =>
    rw [classIds, List.forall₂_cons_left_iff]
    cases found : n.attribute? "id" with
    | none => simp
    | some id =>
      simp only [map_eq_ok_iff, ih, Option.some.injEq]
      constructor
      · rintro ⟨ids', rest, rfl⟩
        exact ⟨id, ids', rfl, rest, rfl⟩
      · rintro ⟨_, ids', rfl, rest, rfl⟩
        exact ⟨ids', rest, rfl⟩

/-! Hypotheses. -/

theorem shaped_eq_ok_iff {α : Type} {x : Except ShapeFault α} {a : α} :
    shaped x = .ok a ↔ x = .ok a :=
  mapError_eq_ok_iff

theorem IsHypothesis.length_votes {n : Node} {h : Hypothesis} (is : IsHypothesis n h) :
    h.votes.length = (classNodes n).length :=
  is.votes.length_eq.symm

theorem hypothesis_eq_ok_iff {count i : ℕ} {n : Node} {h : Hypothesis} :
    hypothesis count i n = .ok h ↔ IsHypothesis n h ∧ (classNodes n).length = count := by
  constructor
  · intro read
    rw [hypothesis] at read
    obtain ⟨alpha, alpha_read, read⟩ := bind_eq_ok_iff.mp read
    obtain ⟨threshold, threshold_read, read⟩ := bind_eq_ok_iff.mp read
    obtain ⟨column, column_read, read⟩ := bind_eq_ok_iff.mp read
    split at read
    · simp at read
    · next feature resolved =>
      obtain ⟨votes, votes_read, read⟩ := bind_eq_ok_iff.mp read
      split at read
      · simp at read
      · next length =>
        obtain rfl := Except.ok.inj read
        obtain ⟨rfl, spelled⟩ := FeatureRef.resolve?_eq_some_iff.mp resolved
        have votes := voteTexts_eq_ok_iff.mp (shaped_eq_ok_iff.mp votes_read)
        refine ⟨⟨?_, ?_, ?_, FeatureRef.isResolved_iff.mpr spelled, votes⟩, ?_⟩
        · exact scalar_eq_ok_iff.mp (shaped_eq_ok_iff.mp alpha_read)
        · exact scalar_eq_ok_iff.mp (shaped_eq_ok_iff.mp threshold_read)
        · exact scalar_eq_ok_iff.mp (shaped_eq_ok_iff.mp column_read)
        · exact votes.length_eq.trans (not_not.mp length)
  · rintro ⟨is, length⟩
    have resolved : FeatureRef.resolve? h.feature.column = some h.feature := is.feature
    have voted : h.votes.length = count := is.length_votes.trans length
    rw [hypothesis]
    refine bind_eq_ok_iff.mpr ⟨h.alpha, shaped_eq_ok_iff.mpr (scalar_eq_ok_iff.mpr is.alpha), ?_⟩
    refine bind_eq_ok_iff.mpr
      ⟨h.threshold, shaped_eq_ok_iff.mpr (scalar_eq_ok_iff.mpr is.threshold), ?_⟩
    refine bind_eq_ok_iff.mpr
      ⟨h.feature.column, shaped_eq_ok_iff.mpr (scalar_eq_ok_iff.mpr is.column), ?_⟩
    simp only [resolved]
    refine bind_eq_ok_iff.mpr
      ⟨h.votes, shaped_eq_ok_iff.mpr (voteTexts_eq_ok_iff.mpr is.votes), ?_⟩
    simp [voted, pure, Except.pure]

theorem hypotheses_eq_ok_iff {count i : ℕ} {ns : List Node} {hs : List Hypothesis} :
    hypotheses count i ns = .ok hs ↔
      List.Forall₂ IsHypothesis ns hs ∧ ∀ n ∈ ns, (classNodes n).length = count := by
  induction ns generalizing i hs with
  | nil => simp [hypotheses, eq_comm]
  | cons n ns ih =>
    rw [hypotheses, bind_eq_ok_iff, List.forall₂_cons_left_iff, List.forall_mem_cons]
    constructor
    · rintro ⟨h, first, more⟩
      obtain ⟨hs', rest, same⟩ := bind_eq_ok_iff.mp more
      obtain ⟨is, length⟩ := hypothesis_eq_ok_iff.mp first
      obtain ⟨are, lengths⟩ := ih.mp rest
      exact ⟨⟨h, hs', is, are, (Except.ok.inj same).symm⟩, length, lengths⟩
    · rintro ⟨⟨h, hs', is, are, rfl⟩, length, lengths⟩
      exact ⟨h, hypothesis_eq_ok_iff.mpr ⟨is, length⟩,
        bind_eq_ok_iff.mpr ⟨hs', ih.mpr ⟨are, lengths⟩, rfl⟩⟩

theorem classSet_eq_ok_iff {first : Node} {classes : ClassSet} :
    classSet first = .ok classes ↔
      List.Forall₂ (fun c id => c.attribute? "id" = some id) (classNodes first) classes.ids := by
  rw [classSet, bind_eq_ok_iff]
  constructor
  · rintro ⟨ids, read, set⟩
    rw [ClassSet.ofIds] at set
    split at set
    · simp at set
    · obtain rfl := Except.ok.inj set
      exact classIds_eq_ok_iff.mp read
  · intro ids
    refine ⟨classes.ids, classIds_eq_ok_iff.mpr ids, ?_⟩
    simp [ClassSet.ofIds, classes.ids_ne_nil]

/-! Models. -/

theorem firstMiscount_eq_none {n i : ℕ} {hs : List Hypothesis}
    (length : ∀ h ∈ hs, h.votes.length = n) : firstMiscount n i hs = none := by
  induction hs generalizing i with
  | nil => rfl
  | cons h hs ih =>
    rw [firstMiscount, if_pos (length h (by simp))]
    exact ih fun g hg => length g (by simp [hg])

theorem ofParts_eq_ok_iff {classes : ClassSet} {hs : List Hypothesis} {m : Model} :
    Model.ofParts classes hs = .ok m ↔ m.classes = classes ∧ m.hypotheses = hs := by
  constructor
  · intro made
    unfold Model.ofParts at made
    split at made
    · simp at made
    · split at made
      · simp at made
      · obtain rfl := Except.ok.inj made
        exact ⟨rfl, rfl⟩
  · rintro ⟨rfl, rfl⟩
    have counted : firstMiscount m.classes.size 0 m.hypotheses = none :=
      firstMiscount_eq_none m.votes_length
    unfold Model.ofParts
    rw [dif_neg m.hypotheses_ne_nil]
    split
    · next miscounted => rw [counted] at miscounted; contradiction
    · rfl

/-- What was read of the nodes of a document always makes a model. -/
theorem exists_ofParts {ns : List Node} {classes : ClassSet} {hs : List Hypothesis} (ne : ns ≠ [])
    (read : hypotheses classes.size 0 ns = .ok hs) : ∃ m, Model.ofParts classes hs = .ok m := by
  obtain ⟨are, lengths⟩ := hypotheses_eq_ok_iff.mp read
  have hs_ne : hs ≠ [] := by
    rintro rfl
    exact ne (List.forall₂_nil_right_iff.mp are)
  have votes : ∀ h ∈ hs, h.votes.length = classes.size := by
    clear read ne hs_ne
    induction are with
    | nil => simp
    | cons is _ ih =>
      rw [List.forall_mem_cons] at lengths ⊢
      exact ⟨is.length_votes.trans lengths.1, ih lengths.2⟩
  exact ⟨⟨classes, hs, hs_ne, votes⟩, ofParts_eq_ok_iff.mpr ⟨rfl, rfl⟩⟩

theorem Describes.length_classNodes {d : Document} {m : Model} (h : Describes d m) :
    ∀ n ∈ hypothesisNodes d, (classNodes n).length = m.classes.size := by
  have votes := m.votes_length
  have are := h.hypotheses
  revert votes are
  generalize hypothesisNodes d = ns
  generalize m.hypotheses = hs
  intro votes are
  induction are with
  | nil => simp
  | cons is _ ih =>
    rw [List.forall_mem_cons] at votes ⊢
    exact ⟨is.length_votes.symm.trans votes.1, ih votes.2⟩

theorem model_eq_ok_iff {d : Document} {m : Model} : model d = .ok m ↔ Describes d m := by
  have opened : (Xml.nodes d).filter (Node.isNamed "weakhyp") = hypothesisNodes d := rfl
  unfold model
  rw [opened]
  split
  · next none_left =>
    refine ⟨fun h => by simp at h, fun h => ?_⟩
    have are := h.hypotheses
    rw [none_left] at are
    exact absurd (List.forall₂_nil_left_iff.mp are) m.hypotheses_ne_nil
  · next first rest nodes_eq =>
    constructor
    · intro read
      obtain ⟨classes, classes_read, read⟩ := bind_eq_ok_iff.mp read
      obtain ⟨hs, hs_read, made⟩ := bind_eq_ok_iff.mp read
      obtain ⟨rfl, rfl⟩ := ofParts_eq_ok_iff.mp (shaped_eq_ok_iff.mp made)
      have ids := classSet_eq_ok_iff.mp (shaped_eq_ok_iff.mp classes_read)
      have are := (hypotheses_eq_ok_iff.mp hs_read).1
      refine ⟨fun n hn => ?_, nodes_eq ▸ are⟩
      rw [nodes_eq] at hn
      obtain rfl : first = n := by simpa using hn
      exact ids
    · intro h
      have lengths := h.length_classNodes
      have are := h.hypotheses
      have ids := h.ids first (by simp [nodes_eq])
      rw [nodes_eq] at lengths are
      refine bind_eq_ok_iff.mpr
        ⟨m.classes, shaped_eq_ok_iff.mpr (classSet_eq_ok_iff.mpr ids), ?_⟩
      refine bind_eq_ok_iff.mpr ⟨m.hypotheses, hypotheses_eq_ok_iff.mpr ⟨are, lengths⟩, ?_⟩
      exact shaped_eq_ok_iff.mpr (ofParts_eq_ok_iff.mpr ⟨rfl, rfl⟩)

/-! Shapes. -/

theorem mem_columnSpellings_iff {column : String} :
    column ∈ columnSpellings ↔ ∃ r : FeatureRef, r.column = column ∧ r.IsResolved := by
  constructor
  · intro h
    have resolves : ∀ c ∈ columnSpellings, (FeatureRef.resolve? c).isSome := by decide
    obtain ⟨r, hr⟩ := Option.isSome_iff_exists.mp (resolves column h)
    obtain ⟨rfl, -⟩ := FeatureRef.resolve?_eq_some_iff.mp hr
    exact ⟨r, rfl, hr⟩
  · rintro ⟨⟨f, column⟩, rfl, resolved⟩
    cases f <;> rcases FeatureRef.isResolved_iff.mp resolved with spelled | spelled <;>
      (simp only at spelled; subst spelled; decide)

theorem exists_forall₂_iff {α β : Type} {R : α → β → Prop} {xs : List α} :
    (∃ ys, List.Forall₂ R xs ys) ↔ ∀ x ∈ xs, ∃ y, R x y := by
  induction xs with
  | nil => simp
  | cons x xs ih =>
    rw [List.forall_mem_cons, ← ih]
    constructor
    · rintro ⟨_, _ | ⟨first, rest⟩⟩
      exact ⟨⟨_, first⟩, _, rest⟩
    · rintro ⟨⟨y, first⟩, ys, rest⟩
      exact ⟨y :: ys, .cons first rest⟩

theorem exists_isHypothesis_iff {n : Node} {count : ℕ} :
    (∃ h, IsHypothesis n h) ∧ (classNodes n).length = count ↔ IsHypothesisShaped count n := by
  constructor
  · rintro ⟨⟨h, is⟩, length⟩
    exact ⟨⟨_, is.alpha⟩, ⟨_, is.threshold⟩,
      ⟨_, mem_columnSpellings_iff.mpr ⟨h.feature, rfl, is.feature⟩, is.column⟩, length,
      exists_forall₂_iff.mp ⟨_, is.votes⟩⟩
  · rintro ⟨⟨alpha, ha⟩, ⟨threshold, ht⟩, ⟨column, spelled, hc⟩, length, votes⟩
    obtain ⟨r, rfl, resolved⟩ := mem_columnSpellings_iff.mp spelled
    obtain ⟨texts, hv⟩ := exists_forall₂_iff.mpr votes
    exact ⟨⟨⟨alpha, threshold, r, texts⟩, ha, ht, hc, resolved, hv⟩, length⟩

theorem exists_describes_iff {d : Document} : (∃ m, Describes d m) ↔ IsModelShaped d := by
  constructor
  · rintro ⟨m, h⟩
    have nodes_ne : hypothesisNodes d ≠ [] := by
      intro none_left
      have are := h.hypotheses
      rw [none_left] at are
      exact m.hypotheses_ne_nil (List.forall₂_nil_left_iff.mp are)
    refine ⟨nodes_ne, fun first hfirst => ?_⟩
    have ids := h.ids first hfirst
    have count : (classNodes first).length = m.classes.size := ids.length_eq
    refine ⟨?_, exists_forall₂_iff.mp ⟨_, ids⟩, fun n hn => exists_isHypothesis_iff.mp ⟨?_, ?_⟩⟩
    · intro none_left
      rw [none_left] at ids
      exact m.classes.ids_ne_nil (List.forall₂_nil_left_iff.mp ids)
    · exact exists_forall₂_iff.mp ⟨_, h.hypotheses⟩ n hn
    · rw [h.length_classNodes n hn, count]
  · rintro ⟨nodes_ne, shaped_first⟩
    obtain ⟨first, hfirst⟩ := Option.isSome_iff_exists.mp (List.isSome_head?.mpr nodes_ne)
    obtain ⟨classes_ne, identified, shaped_nodes⟩ := shaped_first first hfirst
    obtain ⟨ids, hids⟩ := exists_forall₂_iff.mpr identified
    have ids_ne : ids ≠ [] := by
      rintro rfl
      exact classes_ne (List.forall₂_nil_right_iff.mp hids)
    obtain ⟨hs, are⟩ := exists_forall₂_iff.mpr fun n hn =>
      (exists_isHypothesis_iff.mpr (shaped_nodes n hn)).1
    have lengths : ∀ n ∈ hypothesisNodes d,
        (classNodes n).length = (ClassSet.mk ids ids_ne).size :=
      fun n hn => (shaped_nodes n hn).count.trans hids.length_eq
    have read : hypotheses (ClassSet.mk ids ids_ne).size 0 (hypothesisNodes d) = .ok hs :=
      hypotheses_eq_ok_iff.mpr ⟨are, lengths⟩
    obtain ⟨m, made⟩ := exists_ofParts nodes_ne read
    obtain ⟨classes_eq, rfl⟩ := ofParts_eq_ok_iff.mp made
    refine ⟨m, fun n hn => ?_, are⟩
    rw [hfirst] at hn
    obtain rfl : first = n := Option.some.inj hn
    rwa [classes_eq]

/-! Texts of documents. -/

theorem ofText_eq_ok_iff {text : List Char} {d : Document} {m : Model}
    (well_formed : Xml.parse text = .ok d) : ofText text = .ok m ↔ Describes d m := by
  rw [ofText, well_formed]
  exact model_eq_ok_iff

/-- A well-formed text is read if and only if its tree has the shape of a model, and then as the
model that the tree describes. No hypothesis with a wrong number of votes is found when the model is
put together. -/
theorem ofText_reads {text : List Char} {d : Document} (well_formed : Xml.parse text = .ok d) :
    ((∃ m, ofText text = .ok m) ↔ IsModelShaped d) ∧
      (∀ m, ofText text = .ok m → Describes d m) ∧
      (hypothesisNodes d ≠ [] → ∀ classes hs,
        hypotheses classes.size 0 (hypothesisNodes d) = .ok hs →
          ∃ m, Model.ofParts classes hs = .ok m) := by
  refine ⟨?_, fun m => (ofText_eq_ok_iff well_formed).mp, fun ne classes hs => exists_ofParts ne⟩
  simp only [ofText_eq_ok_iff well_formed]
  exact exists_describes_iff

def smallDocument : String :=
  "<m><weakhyp><p><alpha>1</alpha></p><threshold>2</threshold><column>topPosition</column>" ++
    "<class id=\"a\">3</class></weakhyp></m>"

def smallModel : Model where
  classes := ⟨["a"], by decide⟩
  hypotheses := [⟨"1", "2", ⟨.topPosition, "topPosition"⟩, ["3"]⟩]
  hypotheses_ne_nil := by decide
  votes_length := by decide

theorem ofText_smallDocument : ofText smallDocument.toList = .ok smallModel := by
  decide +kernel

theorem ofText_reads_smallDocument :
    ∃ d, Xml.parse smallDocument.toList = .ok d ∧ IsModelShaped d ∧ Describes d smallModel := by
  obtain ⟨d, parsed, -⟩ := bind_eq_ok_iff.mp ofText_smallDocument
  have well_formed := mapError_eq_ok_iff.mp parsed
  obtain ⟨accepted, described, -⟩ := ofText_reads well_formed
  exact ⟨d, well_formed, accepted.mp ⟨_, ofText_smallDocument⟩, described _ ofText_smallDocument⟩

end StumpCompiler.Reader
