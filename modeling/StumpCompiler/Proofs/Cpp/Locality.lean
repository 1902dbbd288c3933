import StumpCompiler.Proofs.Cpp.Statements

/-! A change of a model or of the settings changes only the lines of the source that it is about:
the name of the header the first line, identifiers the second, numbers their own vote statements. A
column changes the statements of its hypothesis and the aliases. -/

namespace StumpCompiler.Cpp

variable {α : Type} {m m' : Model} {s s' : Settings} {P : ℕ → Prop} {i : ℕ} {g g' : Hypothesis}

/-- Two lists of one length that agree at all places but some. -/
structure DifferOnlyAt (P : ℕ → Prop) (xs ys : List α) : Prop where
  length : xs.length = ys.length
  same : ∀ k, ¬P k → xs[k]? = ys[k]?

theorem differOnlyAt_middle (front back : List α) (a b : α) :
    DifferOnlyAt (· = front.length) (front ++ a :: back) (front ++ b :: back) := by
  refine ⟨by simp, fun k other => ?_⟩
  rcases Nat.lt_or_gt_of_ne other with before | behind
  · rw [List.getElem?_append_left before, List.getElem?_append_left before]
  · obtain ⟨j, rest⟩ : ∃ j, k - front.length = j + 1 := ⟨k - front.length - 1, by omega⟩
    rw [List.getElem?_append_right behind.le, List.getElem?_append_right behind.le, rest]
    rfl

/-! The lines around the statements. -/

/-- Only one line has anything from the settings, the name of the header. -/
theorem sourceLines_tail (m : Model) (s s' : Settings) :
    (sourceLines m s').tail = (sourceLines m s).tail := rfl

theorem source_eq_of_headerFile (same : s'.headerFile = s.headerFile) :
    source m s' = source m s := by
  have lines : sourceLines m s' = sourceLines m s := by
    rw [sourceLines_eq_cons, sourceLines_tail m s s', includeLine, same]
    rfl
  rw [source, source, sourceListing, sourceListing, lines]

def classesLine (m : Model) : String :=
  "static int classes[" ++ toString m.classCount ++ "] = \x7b" ++ ", ".intercalate m.classes.ids ++
    "\x7d;"

theorem sourceLines_eq_cons_cons (m : Model) (s : Settings) :
    sourceLines m s = includeLine s :: classesLine m :: (sourceLines m s).tail.tail := rfl

/-- Behind the second line, classes are only counted. -/
theorem sourceLines_tail_tail (hypotheses : m'.hypotheses = m.hypotheses)
    (count : m'.classCount = m.classCount) (s : Settings) :
    (sourceLines m' s).tail.tail = (sourceLines m s).tail.tail := by
  simp only [sourceLines, headLines, prologueLines, voteLines, scanLines, Model.aliases,
    hypotheses, count, List.cons_append, List.tail_cons]

/-- The lines of the aliases. -/
def aliasTexts (m : Model) : List (List Char) :=
  (m.aliases.map aliasLine).map String.toList

/-- The aliases and the statements are all that depends on the hypotheses. -/
theorem exists_linesOf_eq (h : m.HasNoLineEnds) (h' : m'.HasNoLineEnds)
    (one_line : '\n' ∉ s.headerFile.toList) (classes : m'.classes = m.classes) :
    ∃ front middle back,
      linesOf (source m s).toList = front ++ aliasTexts m ++ middle ++ statements m ++ back ∧
      linesOf (source m' s).toList = front ++ aliasTexts m' ++ middle ++ statements m' ++ back := by
  have count : m'.classCount = m.classCount := congrArg ClassSet.size classes
  refine ⟨(headLines m s ++ Feature.all.map descriptorLine ++ Feature.all.map valueLine).map
    String.toList, ["  double votes[" ++ toString m.classCount ++ "] = \x7b0\x7d;", ""].map
      String.toList, (scanLines m).map String.toList, ?_, ?_⟩
  · rw [linesOf_source h one_line]
    simp [sourceLines, prologueLines, voteLines, aliasTexts, statements]
  · rw [linesOf_source h' one_line]
    simp [sourceLines, headLines, scanLines, prologueLines, voteLines, aliasTexts, statements,
      classes, count]

theorem aliases_set (old : m.hypotheses[i]? = some g)
    (hypotheses : m'.hypotheses = m.hypotheses.set i g') (feature : g'.feature = g.feature) :
    m'.aliases = m.aliases := by
  have features : m'.hypotheses.map Hypothesis.feature = m.hypotheses.map Hypothesis.feature := by
    obtain ⟨below, rfl⟩ := List.getElem?_eq_some_iff.mp old
    rw [hypotheses, List.map_set, feature, ← List.map_set, List.set_getElem_self]
  rw [Model.aliases, Model.aliases, features]

/-! Statements. -/

/-- A change of one hypothesis changes no other statements, and no statement of its own that it has
as before. -/
theorem differOnlyAt_statements (classes : m'.classes = m.classes)
    (old : m.hypotheses[i]? = some g) (hypotheses : m'.hypotheses = m.hypotheses.set i g')
    (same : ∀ k, ¬P k → k / m.classCount = i →
      (hypothesisLines g')[k % m.classCount]? = (hypothesisLines g)[k % m.classCount]?) :
    DifferOnlyAt P (statements m) (statements m') := by
  have count : m'.classCount = m.classCount := congrArg ClassSet.size classes
  refine ⟨?_, fun k other => ?_⟩
  · simp only [length_statements, Model.voteStatementCount, Model.hypothesisCount, hypotheses,
      count, List.length_set]
  · rw [getElem?_statements_eq, getElem?_statements_eq, count, hypotheses]
    -- The quotient tells whose statement it is.
    by_cases here : k / m.classCount = i
    · have below : i < m.hypotheses.length := (List.getElem?_eq_some_iff.mp old).1
      rw [here, List.getElem?_set_self below, old, Option.bind_some, Option.bind_some,
        same k other here]
    · rw [List.getElem?_set_ne (Ne.symm here)]

theorem getElem?_hypothesisLines_set (g : Hypothesis) {slot k : ℕ} (other : k ≠ slot) (v : String) :
    (hypothesisLines { g with votes := g.votes.set slot v })[k]? = (hypothesisLines g)[k]? := by
  rw [getElem?_hypothesisLines, getElem?_hypothesisLines, List.getElem?_set_ne other.symm]
  rfl

/-- Two texts with the same lines around their vote statements, which differ only at some places. -/
def VotesDifferOnlyAt (P : ℕ → Prop) (text text' : List Char) : Prop :=
  ∃ front back, linesOf text = front ++ voteLinesOf text ++ back ∧
    linesOf text' = front ++ voteLinesOf text' ++ back ∧
    DifferOnlyAt P (voteLinesOf text) (voteLinesOf text')

theorem votesDifferOnlyAt_of_set (h : m.HasNoLineEnds) (h' : m'.HasNoLineEnds)
    (one_line : '\n' ∉ s.headerFile.toList) (classes : m'.classes = m.classes)
    (old : m.hypotheses[i]? = some g) (hypotheses : m'.hypotheses = m.hypotheses.set i g')
    (feature : g'.feature = g.feature)
    (same : ∀ k, ¬P k → k / m.classCount = i →
      (hypothesisLines g')[k % m.classCount]? = (hypothesisLines g)[k % m.classCount]?) :
    VotesDifferOnlyAt P (source m s).toList (source m' s).toList := by
  obtain ⟨front, middle, back, lines, lines'⟩ := exists_linesOf_eq h h' one_line classes
  have aliases : aliasTexts m' = aliasTexts m := by
    rw [aliasTexts, aliases_set old hypotheses feature, aliasTexts]
  rw [VotesDifferOnlyAt, voteLinesOf_eq h one_line, voteLinesOf_eq h' one_line]
  exact ⟨front ++ aliasTexts m ++ middle, back, lines, by rw [lines', aliases],
    differOnlyAt_statements classes old hypotheses same⟩

/-- The places of the statements of a hypothesis. -/
def IsOwn (m : Model) (i k : ℕ) : Prop :=
  i * m.classCount ≤ k ∧ k < i * m.classCount + m.classCount

theorem isOwn_of_div_eq {k : ℕ} (here : k / m.classCount = i) : IsOwn m i k := by
  have parts := Nat.div_add_mod' k m.classCount
  have below := Nat.mod_lt k (classCount_pos m)
  rw [here] at parts
  constructor <;> omega

/-- What a change of a model or of the settings does to the lines of the source. -/
theorem source_local (h : m.HasNoLineEnds) (h' : m'.HasNoLineEnds)
    (one_line : '\n' ∉ s.headerFile.toList) (one_line' : '\n' ∉ s'.headerFile.toList) :
    -- The settings.
    (∀ (n : Model) (t t' : Settings), t'.headerFile = t.headerFile → source n t' = source n t) ∧
    DifferOnlyAt (· = 0) (linesOf (source m s).toList) (linesOf (source m s').toList) ∧
    (s'.headerFile = s.headerFile →
      -- The identifiers of the classes.
      (m'.hypotheses = m.hypotheses → m'.classCount = m.classCount →
        DifferOnlyAt (· = 1) (linesOf (source m s).toList) (linesOf (source m' s').toList)) ∧
      (m'.classes = m.classes → ∀ i g, m.hypotheses[i]? = some g →
        -- One vote.
        (∀ slot v, m'.hypotheses = m.hypotheses.set i { g with votes := g.votes.set slot v } →
          VotesDifferOnlyAt (· = i * m.classCount + slot) (source m s).toList
            (source m' s').toList) ∧
        -- The weight and the threshold.
        (∀ alpha threshold,
          m'.hypotheses = m.hypotheses.set i { g with alpha := alpha, threshold := threshold } →
          VotesDifferOnlyAt (IsOwn m i) (source m s).toList (source m' s').toList) ∧
        -- The column.
        ∀ r, m'.hypotheses = m.hypotheses.set i { g with feature := r } →
          ∃ front middle back,
            linesOf (source m s).toList = front ++ aliasTexts m ++ middle ++
              voteLinesOf (source m s).toList ++ back ∧
            linesOf (source m' s').toList = front ++ aliasTexts m' ++ middle ++
              voteLinesOf (source m' s').toList ++ back ∧
            DifferOnlyAt (IsOwn m i) (voteLinesOf (source m s).toList)
              (voteLinesOf (source m' s').toList))) := by
  refine ⟨fun n t t' => source_eq_of_headerFile, ?_, fun header => ⟨fun hypotheses count => ?_,
    fun classes i g old => ⟨fun slot v hypotheses => ?_, fun alpha threshold hypotheses => ?_,
      fun r hypotheses => ?_⟩⟩⟩
  · rw [linesOf_source h one_line, linesOf_source h one_line', sourceLines_eq_cons m s,
      sourceLines_eq_cons m s', sourceLines_tail m s s']
    exact differOnlyAt_middle [] _ _ _
  · rw [source_eq_of_headerFile header, linesOf_source h one_line, linesOf_source h' one_line,
      sourceLines_eq_cons_cons m s, sourceLines_eq_cons_cons m' s,
      sourceLines_tail_tail hypotheses count]
    exact differOnlyAt_middle [(includeLine s).toList] _ _ _
  · rw [source_eq_of_headerFile header]
    refine votesDifferOnlyAt_of_set h h' one_line classes old hypotheses rfl fun k other here => ?_
    refine getElem?_hypothesisLines_set g (fun place => other ?_) v
    rw [← here, ← place, Nat.div_add_mod']
  · rw [source_eq_of_headerFile header]
    exact votesDifferOnlyAt_of_set h h' one_line classes old hypotheses rfl
      fun k other here => absurd (isOwn_of_div_eq here) other
  · rw [source_eq_of_headerFile header]
    obtain ⟨front, middle, back, lines, lines'⟩ := exists_linesOf_eq h h' one_line classes
    rw [voteLinesOf_eq h one_line, voteLinesOf_eq h' one_line]
    have statements := differOnlyAt_statements classes old hypotheses
      fun k other here => absurd (isOwn_of_div_eq here) other
    exact ⟨front, middle, back, lines, lines', statements⟩

/-- Two rounds, with an open vote at the end. -/
def openModel (vote : String) : Model where
  classes := ⟨["1", "2"], by decide⟩
  hypotheses := [
    ⟨"1", "2", ⟨.topPosition, "TopPosition"⟩, ["3", "4"]⟩,
    ⟨"5", "6", ⟨.aspectRatio, "aspectRatio"⟩, ["7", vote]⟩]
  hypotheses_ne_nil := by simp
  votes_length := by simp [ClassSet.size]

theorem source_local_openModel :
    let s' := { Settings.default with outputDir := "out" }
    (openModel "8").HasNoLineEnds ∧ (openModel "9").HasNoLineEnds ∧
      '\n' ∉ Settings.default.headerFile.toList ∧
      VotesDifferOnlyAt (· = 3) (source (openModel "8") .default).toList
        (source (openModel "9") s').toList := by
  intro s'
  have ends : (openModel "8").HasNoLineEnds := ⟨by decide, by decide⟩
  have ends' : (openModel "9").HasNoLineEnds := ⟨by decide, by decide⟩
  have one_line : '\n' ∉ Settings.default.headerFile.toList := by decide
  have one_line' : '\n' ∉ s'.headerFile.toList := one_line
  obtain ⟨-, -, edits⟩ := source_local ends ends' one_line one_line'
  have vote := ((edits rfl).2 rfl 1 _ rfl).1 1 "9" rfl
  exact ⟨ends, ends', one_line, vote⟩

end StumpCompiler.Cpp
