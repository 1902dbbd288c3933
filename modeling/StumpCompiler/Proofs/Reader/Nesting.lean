import StumpCompiler.Proofs.Reader.Grammar
import StumpCompiler.Proofs.Xml.Tree

/-! Hypotheses inside hypotheses. The parts of a hypothesis stand at any depth below it, so a part
belongs to every hypothesis around it, and it is read once for each of them. -/

namespace StumpCompiler.Reader

open Xml (Node Document)

mutual

/-- The nodes of a tree in document order, each with the hypotheses around it, the innermost first.
Those in `around` stand around the tree. -/
def within (around : List Node) : Node → List (Node × List Node)
  | .element name attributes children =>
    let n := .element name attributes children
    (n, around) :: withinAll (if n.isNamed "weakhyp" then n :: around else around) children
  | .text content => [(.text content, around)]
  | .comment content => [(.comment content, around)]
  | .instruction target content => [(.instruction target content, around)]

def withinAll (around : List Node) : List Node → List (Node × List Node)
  | [] => []
  | n :: ns => within around n ++ withinAll around ns

end

/-- The elements named `tag` that lie inside hypotheses, each with those hypotheses. -/
def parts (tag : String) (d : Document) : List (Node × List Node) :=
  ((withinAll [] d).filter fun p => p.1.isNamed tag).filter fun p => p.2 ≠ []

/-- No hypothesis lies inside another one. -/
def IsFlat (d : Document) : Prop :=
  ∀ p ∈ withinAll [] d, p.1.isNamed "weakhyp" → p.2 = []

/-- The names of the parts of a hypothesis. -/
def partTags : List String := ["alpha", "threshold", "column", "class"]

/-- How many elements of each hypothesis have the name `tag`. -/
def partsEach (m : Model) (tag : String) : ℕ :=
  if tag = "class" then m.classCount else 1

/-- How many texts of a model come from elements named `tag`. -/
def partCount (m : Model) (tag : String) : ℕ :=
  if tag = "class" then m.voteStatementCount else m.hypothesisCount

variable {d : Document} {m : Model} {tag : String} {n x h : Node} {around owners : List Node}
  {ns : List Node} {p : Node × List Node}

/-! Where nodes lie. -/

/-- The hypotheses around the children of a node. -/
def throughNode (n : Node) (around : List Node) : List Node :=
  if n.isNamed "weakhyp" then n :: around else around

theorem within_eq (around : List Node) (n : Node) :
    within around n = (n, around) :: withinAll (throughNode n around) n.children := by
  cases n <;> rfl

theorem mem_withinAll : p ∈ withinAll around ns ↔ ∃ n ∈ ns, p ∈ within around n := by
  induction ns with
  | nil => simp [withinAll]
  | cons n ns ih => simp [withinAll, ih]

theorem mem_within :
    p ∈ within around n ↔
      p = (n, around) ∨ ∃ c ∈ n.children, p ∈ within (throughNode n around) c := by
  rw [within_eq, List.mem_cons, mem_withinAll]

theorem mem_subtree_of_mem_within (mem : (x, owners) ∈ within around n) : x ∈ n.subtree := by
  induction n using Node.induction generalizing around with
  | step n ih =>
    rw [Node.subtree_eq, List.mem_cons]
    rcases mem_within.mp mem with top | ⟨c, hc, below⟩
    · exact .inl (Prod.mk.inj top).1
    · exact .inr (Xml.mem_nodes.mpr ⟨c, hc, ih c hc below⟩)

/-- The innermost hypothesis around a node has the node below it, and the others around it. -/
theorem innermost_of_mem_within (mem : (x, h :: owners) ∈ within around n) :
    h :: owners = around ∨
      h.isNamed "weakhyp" ∧ x ∈ h.descendants ∧ (h, owners) ∈ within around n := by
  induction n using Node.induction generalizing around with
  | step n ih =>
    rcases mem_within.mp mem with top | ⟨c, hc, below⟩
    · exact .inl (Prod.mk.inj top).2
    · rcases ih c hc below with same | ⟨named, lower, inside⟩
      · -- nothing below the node is around `x`, so it is the node itself or stands around it
        unfold throughNode at same below
        split at same
        · next named =>
          obtain ⟨rfl, rfl⟩ := List.cons.inj same
          have lower : x ∈ h.descendants :=
            Xml.mem_nodes.mpr ⟨c, hc, mem_subtree_of_mem_within below⟩
          exact .inr ⟨named, lower, mem_within.mpr (.inl rfl)⟩
        · exact .inl same
      · exact .inr ⟨named, lower, mem_within.mpr (.inr ⟨c, hc, inside⟩)⟩

theorem exists_throughNode (n : Node) (around : List Node) :
    ∃ inner, throughNode n around = inner ++ around := by
  unfold throughNode
  split
  · exact ⟨[n], rfl⟩
  · exact ⟨[], rfl⟩

/-- Around every node of a tree are the hypotheses around the tree. -/
theorem exists_mem_within (mem : x ∈ n.subtree) (around : List Node) :
    ∃ inner, (x, inner ++ around) ∈ within around n := by
  induction n using Node.induction generalizing around with
  | step n ih =>
    rw [Node.subtree_eq, List.mem_cons] at mem
    rcases mem with rfl | below
    · exact ⟨[], mem_within.mpr (.inl rfl)⟩
    · obtain ⟨c, hc, below⟩ := Xml.mem_nodes.mp below
      obtain ⟨inner, inside⟩ := ih c hc below (throughNode n around)
      obtain ⟨more, through⟩ := exists_throughNode n around
      refine ⟨inner ++ more, mem_within.mpr (.inr ⟨c, hc, ?_⟩)⟩
      rwa [List.append_assoc, ← through]

theorem mem_within_trans (outer : (h, owners) ∈ within around n) (mem : p ∈ within owners h) :
    p ∈ within around n := by
  induction n using Node.induction generalizing around with
  | step n ih =>
    rcases mem_within.mp outer with top | ⟨c, hc, below⟩
    · obtain ⟨rfl, rfl⟩ := Prod.mk.inj top
      exact mem
    · exact mem_within.mpr (.inr ⟨c, hc, ih c hc below⟩)

/-- Around every node below a hypothesis are the hypothesis and those around it. -/
theorem exists_mem_within_of_hypothesis (outer : (h, owners) ∈ within around n)
    (named : h.isNamed "weakhyp") (mem : x ∈ h.descendants) :
    ∃ inner, (x, inner ++ h :: owners) ∈ within around n := by
  obtain ⟨c, hc, below⟩ := Xml.mem_nodes.mp mem
  obtain ⟨inner, inside⟩ := exists_mem_within below (h :: owners)
  refine ⟨inner, mem_within_trans outer (mem_within.mpr (.inr ⟨c, hc, ?_⟩))⟩
  rwa [throughNode, if_pos named]

/-! How often elements are read. -/

/-- How many elements named `tag` are read for the hypotheses among `ns`. -/
def taken (tag : String) (ns : List Node) : ℕ :=
  ((ns.filter (Node.isNamed "weakhyp")).map fun h => (elementsNamed tag h).length).sum

/-- How many hypotheses lie around the elements named `tag`, all in all. -/
def weight (tag : String) (ps : List (Node × List Node)) : ℕ :=
  ((ps.filter fun p => p.1.isNamed tag).map fun p => p.2.length).sum

theorem taken_cons (n : Node) (ns : List Node) :
    taken tag (n :: ns) =
      (if n.isNamed "weakhyp" then (elementsNamed tag n).length else 0) + taken tag ns := by
  unfold taken
  rw [List.filter_cons]
  split <;> simp

theorem taken_append (ms ns : List Node) : taken tag (ms ++ ns) = taken tag ms + taken tag ns := by
  simp [taken]

theorem weight_cons (n : Node) (around : List Node) (ps : List (Node × List Node)) :
    weight tag ((n, around) :: ps) =
      (if n.isNamed tag then around.length else 0) + weight tag ps := by
  unfold weight
  rw [List.filter_cons]
  split <;> simp

theorem weight_append (ps qs : List (Node × List Node)) :
    weight tag (ps ++ qs) = weight tag ps + weight tag qs := by
  simp [weight]

/-- What the count of a forest is, if every tree counts so. -/
theorem weight_withinAll (each : ∀ n ∈ ns, ∀ around, weight tag (within around n) =
      around.length * (n.subtree.filter (Node.isNamed tag)).length + taken tag n.subtree)
    (around : List Node) :
    weight tag (withinAll around ns) =
      around.length * ((Xml.nodes ns).filter (Node.isNamed tag)).length +
        taken tag (Xml.nodes ns) := by
  induction ns with
  | nil => simp [withinAll, Xml.nodes, weight, taken]
  | cons n ns ih =>
    rw [List.forall_mem_cons] at each
    rw [withinAll, Xml.nodes, weight_append, taken_append, each.1, ih each.2, List.filter_append,
      List.length_append, Nat.mul_add]
    omega

/-- A node is counted once for every hypothesis around it: those around the whole tree, and those
in the tree, which count what is below them. -/
theorem weight_within (tag : String) (around : List Node) (n : Node) :
    weight tag (within around n) =
      around.length * (n.subtree.filter (Node.isNamed tag)).length + taken tag n.subtree := by
  induction n using Node.induction generalizing around with
  | step n ih =>
    have below := weight_withinAll (fun c hc around => ih c hc around) (throughNode n around)
    have read : (elementsNamed tag n).length =
        ((Xml.nodes n.children).filter (Node.isNamed tag)).length := rfl
    -- below a hypothesis one more is around every node, which is what the hypothesis takes
    rw [within_eq, Node.subtree_eq, weight_cons, taken_cons, below, read, Node.descendants,
      List.filter_cons, throughNode]
    split <;> split <;> simp [Nat.mul_add, Nat.add_mul] <;> omega

/-! Documents. -/

theorem sum_parts (tag : String) (d : Document) :
    ((parts tag d).map fun p => p.2.length).sum = taken tag (Xml.nodes d) := by
  have counted : weight tag (withinAll [] d) = taken tag (Xml.nodes d) := by
    simpa using weight_withinAll (fun n _ around => weight_within tag around n) []
  -- a node outside all hypotheses adds nothing
  have outside (ps : List (Node × List Node)) :
      ((ps.filter fun p => p.2 ≠ []).map fun p => p.2.length).sum =
        (ps.map fun p => p.2.length).sum := by
    induction ps with
    | nil => rfl
    | cons p ps ih =>
      by_cases none_around : p.2 = []
      · simpa [none_around] using ih
      · simpa [none_around] using ih
  rw [← counted, parts, outside, weight]

/-- Every hypothesis that is read has its parts. -/
theorem Describes.length_elementsNamed (described : Describes d m) (part : tag ∈ partTags)
    (mem : h ∈ hypothesisNodes d) : (elementsNamed tag h).length = partsEach m tag := by
  obtain ⟨g, is⟩ := exists_forall₂_iff.mp ⟨_, described.hypotheses⟩ h mem
  have sole {tag text : String} (is : IsSole tag h text) : (elementsNamed tag h).length = 1 := by
    obtain ⟨element, only, -⟩ := is
    rw [only, List.length_singleton]
  simp only [partTags, List.mem_cons, List.not_mem_nil, or_false] at part
  rcases part with rfl | rfl | rfl | rfl
  · exact sole is.alpha
  · exact sole is.threshold
  · exact sole is.column
  · exact described.length_classNodes h mem

theorem Describes.taken_nodes (described : Describes d m) (part : tag ∈ partTags) :
    taken tag (Xml.nodes d) = partCount m tag := by
  have each : (hypothesisNodes d).map (fun h => (elementsNamed tag h).length) =
      (hypothesisNodes d).map fun _ => partsEach m tag :=
    List.map_congr_left fun h mem => described.length_elementsNamed part mem
  have count : (hypothesisNodes d).length = m.hypothesisCount := described.hypotheses.length_eq
  calc taken tag (Xml.nodes d)
      = ((hypothesisNodes d).map fun h => (elementsNamed tag h).length).sum := rfl
    _ = m.hypothesisCount * partsEach m tag := by simp [each, count]
    _ = partCount m tag := by
      unfold partCount partsEach
      split
      · exact Nat.mul_comm _ _
      · exact Nat.mul_one _

/-- Where no hypothesis lies inside another, a part has one owner. -/
theorem IsFlat.exists_owner (flat : IsFlat d) (mem : p ∈ parts tag d) :
    ∃ h ∈ hypothesisNodes d, p.2 = [h] ∧ p.1 ∈ elementsNamed tag h := by
  obtain ⟨x, owners⟩ := p
  simp only [parts, List.mem_filter, decide_eq_true_eq] at mem
  obtain ⟨⟨mem, named⟩, owned⟩ := mem
  obtain ⟨h, owners, rfl⟩ := List.exists_cons_of_ne_nil owned
  obtain ⟨n, hn, inside⟩ := mem_withinAll.mp mem
  rcases innermost_of_mem_within inside with top | ⟨hypothesis, below, outer⟩
  · contradiction
  · have alone : owners = [] := flat (h, owners) (mem_withinAll.mpr ⟨n, hn, outer⟩) hypothesis
    have listed : h ∈ Xml.nodes d := Xml.mem_nodes.mpr ⟨n, hn, mem_subtree_of_mem_within outer⟩
    exact ⟨h, List.mem_filter.mpr ⟨listed, hypothesis⟩, by rw [alone],
      List.mem_filter.mpr ⟨below, named⟩⟩

/-- A hypothesis inside another shares its parts with it. -/
theorem Describes.isFlat (described : Describes d m) (part : tag ∈ partTags)
    (single : ∀ p ∈ parts tag d, p.2.length = 1) : IsFlat d := by
  rintro ⟨h, owners⟩ mem named
  obtain ⟨n, hn, inside⟩ := mem_withinAll.mp mem
  have listed : h ∈ hypothesisNodes d :=
    List.mem_filter.mpr ⟨Xml.mem_nodes.mpr ⟨n, hn, mem_subtree_of_mem_within inside⟩, named⟩
  obtain ⟨x, hx⟩ : ∃ x, x ∈ elementsNamed tag h := by
    refine List.exists_mem_of_length_pos ?_
    rw [described.length_elementsNamed part listed, partsEach]
    split
    · exact List.length_pos_of_ne_nil m.classes.ids_ne_nil
    · exact Nat.one_pos
  obtain ⟨below, tagged⟩ := List.mem_filter.mp hx
  -- around a part of `h` are `h` and all hypotheses around it, so there are none
  obtain ⟨inner, around⟩ := exists_mem_within_of_hypothesis inside named below
  have mem_parts : (x, inner ++ h :: owners) ∈ parts tag d := by
    simp only [parts, List.mem_filter, decide_eq_true_eq]
    exact ⟨⟨mem_withinAll.mpr ⟨n, hn, around⟩, tagged⟩, by simp⟩
  have one := single _ mem_parts
  rw [List.length_append, List.length_cons] at one
  have none_around : owners.length = 0 := by omega
  exact List.eq_nil_of_length_eq_zero none_around

theorem sum_eq_length_iff {xs : List ℕ} (pos : ∀ x ∈ xs, 1 ≤ x) :
    xs.sum = xs.length ↔ ∀ x ∈ xs, x = 1 := by
  induction xs with
  | nil => simp
  | cons x xs ih =>
    rw [List.forall_mem_cons] at pos
    have least := List.length_le_sum_of_one_le xs pos.2
    rw [List.sum_cons, List.length_cons, List.forall_mem_cons, ← ih pos.2]
    omega

/-- The parts of the hypotheses of a document that is read, each counted for every hypothesis around
it, are as many as the model has. So they are as many without that if and only if no hypothesis lies
inside another one, and then every part belongs to one hypothesis. -/
theorem ofText_parts {text : List Char} (well_formed : Xml.parse text = .ok d)
    (read : ofText text = .ok m) :
    List.Forall₂ IsHypothesis (hypothesisNodes d) m.hypotheses ∧ ∀ tag ∈ partTags,
      (IsFlat d → ∀ p ∈ parts tag d,
        ∃ h ∈ hypothesisNodes d, p.2 = [h] ∧ p.1 ∈ elementsNamed tag h) ∧
      ((parts tag d).length = partCount m tag ↔ IsFlat d) ∧
      ((parts tag d).map fun p => p.2.length).sum = partCount m tag := by
  have described := (ofText_eq_ok_iff well_formed).mp read
  refine ⟨described.hypotheses, fun tag part => ?_⟩
  have sum : ((parts tag d).map fun p => p.2.length).sum = partCount m tag := by
    rw [sum_parts, described.taken_nodes part]
  have owned : ∀ k ∈ (parts tag d).map fun p => p.2.length, 1 ≤ k := by
    intro k hk
    obtain ⟨p, hp, rfl⟩ := List.mem_map.mp hk
    exact List.length_pos_of_ne_nil (of_decide_eq_true (List.mem_filter.mp hp).2)
  have single := sum_eq_length_iff owned
  rw [sum, List.length_map, List.forall_mem_map] at single
  refine ⟨fun flat p hp => flat.exists_owner hp, ?_, sum⟩
  rw [eq_comm, single]
  refine ⟨described.isFlat part, fun flat p hp => ?_⟩
  obtain ⟨h, -, owner, -⟩ := flat.exists_owner hp
  rw [owner, List.length_singleton]

def smallTree : Document :=
  [.element ⟨"", "m"⟩ [] [.element ⟨"", "weakhyp"⟩ [] [
    .element ⟨"", "p"⟩ [] [.element ⟨"", "alpha"⟩ [] [.text "1"]],
    .element ⟨"", "threshold"⟩ [] [.text "2"],
    .element ⟨"", "column"⟩ [] [.text "topPosition"],
    .element ⟨"", "class"⟩ [⟨⟨"", "id"⟩, "a"⟩] [.text "3"]]]]

theorem parse_smallDocument : Xml.parse smallDocument.toList = .ok smallTree := by
  decide +kernel

theorem ofText_parts_smallTree :
    IsFlat smallTree ∧ ∀ p ∈ parts "alpha" smallTree,
      ∃ h ∈ hypothesisNodes smallTree, p.2 = [h] ∧ p.1 ∈ elementsNamed "alpha" h := by
  have count : (parts "alpha" smallTree).length = partCount smallModel "alpha" := by
    decide +kernel
  obtain ⟨owner, same_count, -⟩ :=
    (ofText_parts parse_smallDocument ofText_smallDocument).2 "alpha" (by decide)
  have flat := same_count.mp count
  exact ⟨flat, owner flat⟩

/-- A hypothesis with nothing but another one inside. -/
def nestedDocument : String :=
  "<weakhyp><weakhyp><alpha>1</alpha><threshold>2</threshold><column>topPosition</column>" ++
    "<class id=\"a\">3</class></weakhyp></weakhyp>"

def nestedTree : Document :=
  [.element ⟨"", "weakhyp"⟩ [] [.element ⟨"", "weakhyp"⟩ [] [
    .element ⟨"", "alpha"⟩ [] [.text "1"],
    .element ⟨"", "threshold"⟩ [] [.text "2"],
    .element ⟨"", "column"⟩ [] [.text "topPosition"],
    .element ⟨"", "class"⟩ [⟨⟨"", "id"⟩, "a"⟩] [.text "3"]]]]

/-- The one round that is described, twice. -/
def nestedModel : Model where
  classes := smallModel.classes
  hypotheses := smallModel.hypotheses ++ smallModel.hypotheses
  hypotheses_ne_nil := by decide
  votes_length := by decide

/-- Its parts are read for both. -/
theorem nested_hypotheses_share_parts :
    Xml.parse nestedDocument.toList = .ok nestedTree ∧
      ofText nestedDocument.toList = .ok nestedModel ∧
      (parts "alpha" nestedTree).length = 1 ∧ nestedModel.hypothesisCount = 2 ∧
      (parts "class" nestedTree).length = 1 ∧ nestedModel.voteStatementCount = 2 := by
  have parsed : Xml.parse nestedDocument.toList = .ok nestedTree := by decide +kernel
  have read : ofText nestedDocument.toList = .ok nestedModel := by
    rw [ofText, parsed]
    decide +kernel
  exact ⟨parsed, read, by decide +kernel, by decide, by decide +kernel, by decide⟩

end StumpCompiler.Reader
