import StumpCompiler.Proofs.Reader.Grammar

/-! Hypotheses are read one after the other. The first one names the classes; after that, each is
read by itself, and the first that cannot be read ends the reading with its own fault. -/

namespace StumpCompiler

/-- The same fault of a hypothesis that stands `k` places further on. -/
def ShapeFault.later (k : ℕ) : ShapeFault → ShapeFault
  | noHypotheses => noHypotheses
  | emptyClassSet => emptyClassSet
  | missingElement i element => missingElement (i + k) element
  | duplicateElement i element count => duplicateElement (i + k) element count
  | nonTextContent i element => nonTextContent (i + k) element
  | missingAttribute i index name => missingAttribute (i + k) index name
  | classCountMismatch i expected actual => classCountMismatch (i + k) expected actual

def Fault.later (k : ℕ) : Fault → Fault
  | shape cause => shape (cause.later k)
  | undefinedFeature i name => undefinedFeature (i + k) name
  | fault => fault

namespace Reader

open Xml (Node Document)

/-- The model of the elements that are hypotheses. -/
def modelOf : List Node → Except Fault Model
  | [] => .error (.shape .noHypotheses)
  | first :: rest => do
    let classes ← shaped (classSet first)
    let hs ← hypotheses classes.size 0 (first :: rest)
    shaped (Model.ofParts classes hs)

theorem model_eq_modelOf (d : Document) : model d = modelOf (hypothesisNodes d) := by
  have opened : (Xml.nodes d).filter (Node.isNamed "weakhyp") = hypothesisNodes d := rfl
  unfold model
  rw [opened]
  cases hypothesisNodes d <;> rfl

variable {ns ms : List Node} {n : Node} {count i k : ℕ} {e : Fault} {m : Model}

/-! A hypothesis that stands further on. -/

theorem soleText_later (tag : String) (n : Node) :
    soleText (i + k) tag n = (soleText i tag n).mapError (.later k) := by
  unfold soleText
  cases n.singleText? <;> rfl

theorem scalar_later (tag : String) (n : Node) :
    scalar (i + k) tag n = (scalar i tag n).mapError (.later k) := by
  unfold scalar
  split
  · rfl
  · exact soleText_later tag _
  · rfl

theorem shaped_mapError {α : Type} (x : Except ShapeFault α) :
    shaped (x.mapError (.later k)) = (shaped x).mapError (.later k) := by
  cases x <;> rfl

theorem voteTexts_later (ns : List Node) :
    voteTexts (i + k) ns = (voteTexts i ns).mapError (.later k) := by
  induction ns with
  | nil => rfl
  | cons n ns ih =>
    rw [voteTexts, voteTexts, bind_mapError, soleText_later, ih]
    simp only [bind_mapError]
    rfl

/-- Only the number of the hypothesis in a fault depends on its place. -/
theorem hypothesis_later (count i k : ℕ) (n : Node) :
    hypothesis count (i + k) n = (hypothesis count i n).mapError (.later k) := by
  rw [hypothesis, hypothesis]
  simp only [bind_mapError, scalar_later, shaped_mapError, voteTexts_later]
  refine bind_congr fun alpha => bind_congr fun threshold => bind_congr fun column => ?_
  cases FeatureRef.resolve? column with
  | none => rfl
  | some feature =>
    simp only [bind_mapError]
    refine bind_congr fun votes => ?_
    split <;> rfl

/-! Several hypotheses. -/

theorem hypotheses_append (count i : ℕ) (ns ms : List Node) :
    hypotheses count i (ns ++ ms) = do
      let hs ← hypotheses count i ns
      let gs ← hypotheses count (i + ns.length) ms
      return hs ++ gs := by
  induction ns generalizing i with
  | nil => exact (bind_pure (hypotheses count i ms)).symm
  | cons n ns ih =>
    have place : i + 1 + ns.length = i + (n :: ns).length := by
      rw [List.length_cons]
      omega
    rw [List.cons_append, hypotheses, hypotheses, ih, place]
    simp only [bind_assoc, pure_bind, List.cons_append]

/-- The fault is that of the first hypothesis that cannot be read. -/
theorem hypotheses_eq_error_iff :
    hypotheses count i ns = .error e ↔
      ∃ front n back, ns = front ++ n :: back ∧ (∃ hs, hypotheses count i front = .ok hs) ∧
        hypothesis count (i + front.length) n = .error e := by
  induction ns generalizing i with
  | nil => simp [hypotheses]
  | cons n ns ih =>
    rw [hypotheses, bind_eq_error_iff]
    constructor
    · rintro (first | ⟨h, first, more⟩)
      · exact ⟨[], n, ns, rfl, ⟨[], rfl⟩, first⟩
      · rcases bind_eq_error_iff.mp more with rest | ⟨_, _, done⟩
        · obtain ⟨front, n', back, rfl, ⟨hs, read⟩, fault⟩ := ih.mp rest
          refine ⟨n :: front, n', back, rfl, ⟨h :: hs, ?_⟩, ?_⟩
          · rw [hypotheses, first, read]
            rfl
          · rwa [List.length_cons, Nat.add_comm front.length, ← Nat.add_assoc]
        · cases done
    · rintro ⟨front, n', back, same, ⟨hs, read⟩, fault⟩
      cases front with
      | nil =>
        obtain ⟨rfl, rfl⟩ := List.cons.inj same
        exact .inl fault
      | cons _ front =>
        obtain ⟨rfl, rfl⟩ := List.cons.inj same
        obtain ⟨h, first, more⟩ := bind_eq_ok_iff.mp read
        obtain ⟨hs', rest, -⟩ := bind_eq_ok_iff.mp more
        rw [List.length_cons, Nat.add_comm front.length, ← Nat.add_assoc] at fault
        have later := ih.mpr ⟨front, n', back, rfl, ⟨hs', rest⟩, fault⟩
        exact .inr ⟨h, first, bind_eq_error_iff.mpr (.inl later)⟩

theorem exists_hypotheses_iff :
    (∃ hs, hypotheses count i ns = .ok hs) ↔ ∀ n ∈ ns, IsHypothesisShaped count n := by
  simp only [hypotheses_eq_ok_iff, exists_and_right, exists_forall₂_iff,
    ← exists_isHypothesis_iff, ← forall₂_and]

/-! Models. -/

theorem modelOf_congr {ns' : List Node}
    (same : List.Forall₂ (fun n n' => ∀ count i, hypothesis count i n' = hypothesis count i n) ns ns')
    (classes : ns'.head?.map classSet = ns.head?.map classSet) : modelOf ns' = modelOf ns := by
  have read (count i : ℕ) : hypotheses count i ns' = hypotheses count i ns := by
    clear classes
    induction same generalizing i with
    | nil => rfl
    | cons first _ ih => rw [hypotheses, hypotheses, first, ih]
  cases same with
  | nil => rfl
  | cons first rest =>
    have registry := Option.some.inj classes
    simp only [modelOf, registry, read]

theorem modelOf_cons_eq_ok_iff {first : Node} {rest : List Node} :
    modelOf (first :: rest) = .ok m ↔
      classSet first = .ok m.classes ∧
        hypotheses m.classes.size 0 (first :: rest) = .ok m.hypotheses := by
  rw [modelOf]
  constructor
  · intro read
    obtain ⟨classes, named, read⟩ := bind_eq_ok_iff.mp read
    obtain ⟨hs, read, made⟩ := bind_eq_ok_iff.mp read
    obtain ⟨rfl, rfl⟩ := ofParts_eq_ok_iff.mp (shaped_eq_ok_iff.mp made)
    exact ⟨shaped_eq_ok_iff.mp named, read⟩
  · rintro ⟨named, read⟩
    refine bind_eq_ok_iff.mpr ⟨m.classes, shaped_eq_ok_iff.mpr named, ?_⟩
    refine bind_eq_ok_iff.mpr ⟨m.hypotheses, read, ?_⟩
    exact shaped_eq_ok_iff.mpr (ofParts_eq_ok_iff.mpr ⟨rfl, rfl⟩)

theorem modelOf_cons_eq_error_iff {first : Node} {rest : List Node} :
    modelOf (first :: rest) = .error e ↔
      (∃ cause, classSet first = .error cause ∧ e = .shape cause) ∨
        ∃ classes, classSet first = .ok classes ∧
          hypotheses classes.size 0 (first :: rest) = .error e := by
  rw [modelOf, bind_eq_error_iff]
  refine or_congr ?_ (exists_congr fun classes => ?_)
  · exact mapError_eq_error_iff.trans (exists_congr fun cause => and_congr_right' eq_comm)
  · rw [shaped_eq_ok_iff]
    refine and_congr_right fun _ => bind_eq_error_iff.trans (or_iff_left ?_)
    rintro ⟨hs, read, unmade⟩
    obtain ⟨m, made⟩ := exists_ofParts (List.cons_ne_nil first rest) read
    rw [shaped, made] at unmade
    cases unmade

/-- What fails, fails at one hypothesis, whatever stands behind it. -/
theorem exists_first_fault (some : ns ≠ []) (h : modelOf ns = .error e) :
    ∃ front n back, ns = front ++ n :: back ∧ (front ≠ [] → ∃ m, modelOf front = .ok m) ∧
      ∀ behind, modelOf (front ++ n :: behind) = .error e := by
  obtain ⟨first, rest, rfl⟩ := List.exists_cons_of_ne_nil some
  rcases modelOf_cons_eq_error_iff.mp h with ⟨cause, unnamed, rfl⟩ | ⟨classes, named, fault⟩
  · refine ⟨[], first, rest, rfl, fun other => absurd rfl other, fun behind => ?_⟩
    exact modelOf_cons_eq_error_iff.mpr (.inl ⟨cause, unnamed, rfl⟩)
  · obtain ⟨front, n, back, same, ⟨hs, read⟩, fault⟩ := hypotheses_eq_error_iff.mp fault
    have behind (ms : List Node) : hypotheses classes.size 0 (front ++ n :: ms) = .error e :=
      hypotheses_eq_error_iff.mpr ⟨front, n, ms, rfl, ⟨hs, read⟩, fault⟩
    refine ⟨front, n, back, same, fun filled => ?_, fun ms => ?_⟩
    · obtain ⟨_, front, rfl⟩ := List.exists_cons_of_ne_nil filled
      obtain ⟨rfl, rfl⟩ := List.cons.inj same
      obtain ⟨m, made⟩ := exists_ofParts filled read
      obtain ⟨rfl, rfl⟩ := ofParts_eq_ok_iff.mp made
      exact ⟨m, modelOf_cons_eq_ok_iff.mpr ⟨named, read⟩⟩
    · cases front with
      | nil =>
        obtain ⟨rfl, rfl⟩ := List.cons.inj same
        exact modelOf_cons_eq_error_iff.mpr (.inr ⟨classes, named, behind ms⟩)
      | cons _ front =>
        obtain ⟨rfl, rfl⟩ := List.cons.inj same
        exact modelOf_cons_eq_error_iff.mpr (.inr ⟨classes, named, behind ms⟩)

theorem modelOf_append_eq_error (some : ns ≠ []) (h : modelOf ns = .error e) (ms : List Node) :
    modelOf (ns ++ ms) = .error e := by
  obtain ⟨front, n, back, rfl, -, fault⟩ := exists_first_fault some h
  rw [List.append_assoc, List.cons_append]
  exact fault _

/-- More hypotheses are read as if they stood alone, with the classes that are there. -/
theorem modelOf_append_of_ok (some : ns ≠ []) (h : modelOf ns = .ok m) (ms : List Node) :
    (∀ hs, hypotheses m.classes.size ns.length ms = .ok hs →
        ∃ all, modelOf (ns ++ ms) = .ok all ∧ all.classes = m.classes ∧
          all.hypotheses = m.hypotheses ++ hs) ∧
      ∀ e, hypotheses m.classes.size ns.length ms = .error e → modelOf (ns ++ ms) = .error e := by
  obtain ⟨first, rest, rfl⟩ := List.exists_cons_of_ne_nil some
  obtain ⟨named, read⟩ := modelOf_cons_eq_ok_iff.mp h
  have joined := hypotheses_append m.classes.size 0 (first :: rest) ms
  rw [read, Nat.zero_add] at joined
  refine ⟨fun hs more => ?_, fun e fault => ?_⟩
  · rw [more] at joined
    obtain ⟨all, made⟩ := exists_ofParts (by simp) joined
    obtain ⟨classes, together⟩ := ofParts_eq_ok_iff.mp made
    refine ⟨all, modelOf_cons_eq_ok_iff.mpr ?_, classes, together⟩
    rw [classes, together]
    exact ⟨named, joined⟩
  · rw [fault] at joined
    exact modelOf_cons_eq_error_iff.mpr (.inr ⟨m.classes, named, joined⟩)

end Reader

end StumpCompiler
