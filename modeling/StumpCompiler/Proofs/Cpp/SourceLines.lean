import StumpCompiler.Proofs.Cpp.Lines
import StumpCompiler.Proofs.Feature

/-! The lines of the generated source can be told apart in its text: none of them has a line end of
its own. -/

namespace StumpCompiler

/-- The texts of a model do not run into their surroundings: no identifier has a comma, no number a
blank, and none of them a line end. -/
structure Model.IsSeparable (m : Model) : Prop where
  ids : ∀ id ∈ m.classes.ids, ',' ∉ id.toList ∧ '\n' ∉ id.toList
  alpha : ∀ h ∈ m.hypotheses, ' ' ∉ h.alpha.toList ∧ '\n' ∉ h.alpha.toList
  threshold : ∀ h ∈ m.hypotheses, ' ' ∉ h.threshold.toList ∧ '\n' ∉ h.threshold.toList
  votes : ∀ h ∈ m.hypotheses, ∀ v ∈ h.votes, ' ' ∉ v.toList ∧ '\n' ∉ v.toList

/-- The texts that a source takes from a model. -/
def Model.texts (m : Model) : List String :=
  m.classes.ids ++ m.hypotheses.flatMap fun h => h.alpha :: h.threshold :: h.votes

/-- All texts are made of letters, digits, dots, signs and underscores. -/
def Model.IsPlain (m : Model) : Prop :=
  ∀ text ∈ m.texts, ∀ c ∈ text.toList, c.isAlphanum ∨ c ∈ ['.', '+', '-', '_']

/-- No text of a model has a line end, and no column. -/
structure Model.HasNoLineEnds (m : Model) : Prop where
  texts : ∀ text ∈ m.texts, '\n' ∉ text.toList
  columns : ∀ h ∈ m.hypotheses, '\n' ∉ h.feature.column.toList

theorem Model.HasNoLineEnds.id {m : Model} (h : m.HasNoLineEnds) {id : String}
    (mem : id ∈ m.classes.ids) : '\n' ∉ id.toList :=
  h.texts id (List.mem_append_left _ mem)

theorem Model.HasNoLineEnds.number {m : Model} (h : m.HasNoLineEnds) {g : Hypothesis}
    (hg : g ∈ m.hypotheses) {text : String} (mem : text ∈ g.alpha :: g.threshold :: g.votes) :
    '\n' ∉ text.toList :=
  h.texts text (List.mem_append_right _ (List.mem_flatMap.mpr ⟨g, hg, mem⟩))

theorem Model.IsPlain.isSeparable {m : Model} (plain : m.IsPlain) : m.IsSeparable := by
  have free (text : String) (mem : text ∈ m.texts) :
      ',' ∉ text.toList ∧ ' ' ∉ text.toList ∧ '\n' ∉ text.toList :=
    ⟨fun comma => absurd (plain text mem _ comma) (by decide),
      fun blank => absurd (plain text mem _ blank) (by decide),
      fun newline => absurd (plain text mem _ newline) (by decide)⟩
  have number (h : Hypothesis) (hh : h ∈ m.hypotheses) (text : String)
      (mem : text ∈ h.alpha :: h.threshold :: h.votes) :
      ' ' ∉ text.toList ∧ '\n' ∉ text.toList :=
    (free text (List.mem_append_right _ (List.mem_flatMap.mpr ⟨h, hh, mem⟩))).2
  exact {
    ids id mem :=
      have := free id (List.mem_append_left _ mem)
      ⟨this.1, this.2.2⟩
    alpha h hh := number h hh _ (by simp)
    threshold h hh := number h hh _ (by simp)
    votes h hh v hv := number h hh v (by simp [hv]) }

namespace Cpp

variable {m : Model} {s : Settings} {c : Char}

theorem not_mem_toDigits (n : ℕ) (h : c.isDigit = false) : c ∉ Nat.toDigits 10 n := by
  intro mem
  simp [Nat.isDigit_of_mem_toDigits (by decide) (by decide) mem] at h

theorem not_mem_intercalate {separator : List Char} {ls : List (List Char)} (h : c ∉ separator)
    (each : ∀ l ∈ ls, c ∉ l) : c ∉ separator.intercalate ls := by
  induction ls with
  | nil => simp
  | cons l ls ih =>
    rw [List.forall_mem_cons] at each
    cases ls with
    | nil => simpa using each.1
    | cons next ls =>
      rw [List.intercalate_cons_cons]
      simp [h, each.1, ih each.2]

theorem not_mem_column {r : FeatureRef} (resolved : r.IsResolved) (h : c.isAlpha = false) :
    c ∉ r.column.toList := by
  intro mem
  simp [resolved.isAlpha_of_mem_column c mem] at h

theorem hasNoLineEnds_of_isResolved (texts : ∀ text ∈ m.texts, '\n' ∉ text.toList)
    (resolved : m.IsResolved) : m.HasNoLineEnds :=
  ⟨texts, fun h hh => not_mem_column (resolved h hh) (by decide)⟩

theorem hasNoLineEnds_of_isSeparable (h : m.IsSeparable) (resolved : m.IsResolved) :
    m.HasNoLineEnds := by
  refine hasNoLineEnds_of_isResolved (fun text mem => ?_) resolved
  rcases List.mem_append.mp mem with id | number
  · exact (h.ids text id).2
  · obtain ⟨g, hg, mem⟩ := List.mem_flatMap.mp number
    rw [List.mem_cons, List.mem_cons] at mem
    rcases mem with rfl | rfl | vote
    · exact (h.alpha g hg).2
    · exact (h.threshold g hg).2
    · exact (h.votes g hg text vote).2

/-- Lines without line ends are found again in the text. -/
theorem splitOn_flatMap_ended {lines : List String} (h : ∀ l ∈ lines, '\n' ∉ l.toList) :
    (lines.flatMap ended).splitOn '\n' = lines.map String.toList ++ [[]] := by
  induction lines with
  | nil => rfl
  | cons l lines ih =>
    rw [List.forall_mem_cons] at h
    rw [List.flatMap_cons, ended, List.append_assoc, List.singleton_append,
      List.splitOn_append_cons_self, List.splitOn_eq_singleton h.1, ih h.2]
    rfl

theorem linesOf_flatMap_ended {lines : List String} (h : ∀ l ∈ lines, '\n' ∉ l.toList) :
    linesOf (lines.flatMap ended) = lines.map String.toList := by
  simp [linesOf, splitOn_flatMap_ended h]

theorem newline_not_mem_headLines (h : m.HasNoLineEnds) :
    ∀ l ∈ (headLines m s).tail, '\n' ∉ l.toList := by
  have ids : '\n' ∉ [',', ' '].intercalate (m.classes.ids.map String.toList) := by
    refine not_mem_intercalate (by decide) fun l hl => ?_
    obtain ⟨id, mem, rfl⟩ := List.mem_map.mp hl
    exact h.id mem
  simp [headLines, ids, not_mem_toDigits]

theorem newline_not_mem_names (f : Feature) : '\n' ∉ f.columnName.toList ∧
    '\n' ∉ f.variableName.toList ∧ '\n' ∉ f.descriptorType.toList := by
  cases f <;> simp [Feature.columnName, Feature.variableName, Feature.descriptorType]

theorem newline_not_mem_prologueLines (h : m.HasNoLineEnds) :
    ∀ l ∈ prologueLines m, '\n' ∉ l.toList := by
  intro l hl
  simp only [prologueLines, List.mem_append, List.mem_map] at hl
  rcases hl with (⟨f, -, rfl⟩ | ⟨f, -, rfl⟩) | ⟨r, hr, rfl⟩
  · simp [descriptorLine, newline_not_mem_names]
  · simp [valueLine, valueIdentifier, newline_not_mem_names]
  · obtain ⟨g, hg, rfl⟩ := List.mem_map.mp (Model.mem_of_mem_spellings hr).1
    simp [aliasLine, valueIdentifier, h.columns g hg, newline_not_mem_names]

theorem newline_not_mem_voteLines (h : m.HasNoLineEnds) :
    ∀ l ∈ voteLines m, '\n' ∉ l.toList := by
  intro l hl
  rcases List.mem_append.mp hl with sums | votes
  · have all : ∀ l ∈ ["  double votes[" ++ toString m.classCount ++ "] = \x7b0\x7d;", ""],
        '\n' ∉ l.toList := by simp [not_mem_toDigits]
    exact all l sums
  · obtain ⟨g, hg, hl⟩ := List.mem_flatMap.mp votes
    obtain ⟨⟨vote, slot⟩, mem, rfl⟩ := List.mem_map.mp hl
    have text : '\n' ∉ vote.toList := h.number hg (by simp [List.fst_mem_of_mem_zipIdx mem])
    have alpha : '\n' ∉ g.alpha.toList := h.number hg (by simp)
    have threshold : '\n' ∉ g.threshold.toList := h.number hg (by simp)
    unfold voteStatement valueIdentifier
    simp only [String.toList_append, List.mem_append, not_or]
    simp [not_mem_toDigits, alpha, threshold, text, h.columns g hg]

theorem newline_not_mem_scanLines (m : Model) : ∀ l ∈ scanLines m, '\n' ∉ l.toList := by
  simp [scanLines, not_mem_toDigits]

/-- Only the name of the header can bring a line end into a line, the first one. -/
theorem newline_not_mem_sourceLines (h : m.HasNoLineEnds) :
    ∀ l ∈ (sourceLines m s).tail, '\n' ∉ l.toList := by
  intro l hl
  have split : (sourceLines m s).tail =
      (headLines m s).tail ++ prologueLines m ++ voteLines m ++ scanLines m := rfl
  simp only [split, List.mem_append] at hl
  rcases hl with ((head | prologue) | votes) | scan
  · exact newline_not_mem_headLines h l head
  · exact newline_not_mem_prologueLines h l prologue
  · exact newline_not_mem_voteLines h l votes
  · exact newline_not_mem_scanLines m l scan

/-- The line that includes the header. -/
def includeLine (s : Settings) : String :=
  "#include \"" ++ s.headerFile ++ "\""

theorem sourceLines_eq_cons (m : Model) (s : Settings) :
    sourceLines m s = includeLine s :: (sourceLines m s).tail := rfl

theorem newline_not_mem_of_one_line (h : m.HasNoLineEnds) (one_line : '\n' ∉ s.headerFile.toList) :
    ∀ l ∈ sourceLines m s, '\n' ∉ l.toList := by
  rw [sourceLines_eq_cons, List.forall_mem_cons]
  exact ⟨by simp [includeLine, one_line], newline_not_mem_sourceLines h⟩

/-- The text of the source, cut at its line ends. -/
theorem splitOn_source (h : m.HasNoLineEnds) (one_line : '\n' ∉ s.headerFile.toList) :
    (source m s).toList.splitOn '\n' = (sourceLines m s).map String.toList ++ [[]] := by
  rw [toList_source, splitOn_flatMap_ended (newline_not_mem_of_one_line h one_line)]

theorem linesOf_source (h : m.HasNoLineEnds) (one_line : '\n' ∉ s.headerFile.toList) :
    linesOf (source m s).toList = (sourceLines m s).map String.toList := by
  rw [toList_source, linesOf_flatMap_ended (newline_not_mem_of_one_line h one_line)]

end Cpp

end StumpCompiler
