import StumpCompiler.Encoding
import StumpCompiler.Proofs.Cpp.SourceLines
import StumpCompiler.Proofs.Generation

/-! The vote statements can be told apart in the text of a source by the way they begin, whatever
the numbers in them are. Their number is the one that a report gives, and the place of a statement
tells its hypothesis and its class. -/

namespace StumpCompiler.Cpp

open Generation (readModel run write)

variable {m : Model} {s : Settings}

/-- A line without its leading white space. -/
def codeOf (line : List Char) : List Char :=
  line.dropWhile Encoding.isBlank

/-- The line adds to a sum: behind its white space it starts with `votes[`, and it holds `+=`. -/
def isVoteLine (line : List Char) : Bool :=
  "votes[".toList.isPrefixOf (codeOf line) && decide ("+=".toList <:+: line)

/-- The vote statements of a program text. -/
def voteLinesOf (text : List Char) : List (List Char) :=
  (linesOf text).filter isVoteLine

/-! Which lines of a source are vote statements. -/

theorem isVoteLine_voteStatement (h : Hypothesis) (slot : ℕ) (vote : String) :
    isVoteLine (voteStatement h slot vote).toList := by
  unfold voteStatement
  simp only [String.toList_append, List.append_assoc]
  have sign : "+=".toList <:+: "] += ".toList := by decide
  have starts (rest : List Char) :
      "votes[".toList.isPrefixOf (codeOf ("  votes[".toList ++ rest)) := by
    simp [codeOf, Encoding.isBlank]
  have adds (rest : List Char) : "+=".toList <:+:
      "  votes[".toList ++ ((toString slot).toList ++ ("] += ".toList ++ rest)) :=
    ((sign.trans (List.prefix_append _ _).isInfix).trans (List.suffix_append _ _).isInfix).trans
      (List.suffix_append _ _).isInfix
  rw [isVoteLine, starts, decide_eq_true (adds _)]
  rfl

theorem isVoteLine_headLines (m : Model) (s : Settings) :
    ∀ l ∈ headLines m s, isVoteLine l.toList = false := by
  simp only [headLines, List.forall_mem_cons, String.toList_append]
  exact ⟨rfl, rfl, rfl, rfl, rfl, List.forall_mem_nil _⟩

theorem isVoteLine_prologueLines (m : Model) :
    ∀ l ∈ prologueLines m, isVoteLine l.toList = false := by
  intro l hl
  simp only [prologueLines, List.mem_append, List.mem_map] at hl
  rcases hl with (⟨f, -, rfl⟩ | ⟨f, -, rfl⟩) | ⟨r, -, rfl⟩
  · cases f <;> rfl
  · cases f <;> rfl
  · simp only [aliasLine, String.toList_append]
    rfl

theorem isVoteLine_scanLines (m : Model) : ∀ l ∈ scanLines m, isVoteLine l.toList = false := by
  simp only [scanLines, List.forall_mem_cons, String.toList_append]
  exact ⟨rfl, rfl, rfl, rfl, rfl, rfl, rfl, rfl, rfl, List.forall_mem_nil _⟩

theorem isVoteLine_sumLines (m : Model) :
    ∀ l ∈ ["  double votes[" ++ toString m.classCount ++ "] = \x7b0\x7d;", ""],
      isVoteLine l.toList = false := by
  simp only [List.forall_mem_cons, String.toList_append]
  exact ⟨rfl, rfl, List.forall_mem_nil _⟩

theorem isVoteLine_hypothesisLines (h : Hypothesis) :
    ∀ l ∈ hypothesisLines h, isVoteLine l.toList := by
  intro l hl
  obtain ⟨⟨vote, slot⟩, -, rfl⟩ := List.mem_map.mp hl
  exact isVoteLine_voteStatement h slot vote

theorem filter_eq_nil_of_isVoteLine {lines : List String}
    (h : ∀ l ∈ lines, isVoteLine l.toList = false) :
    (lines.map String.toList).filter isVoteLine = [] := by
  simpa [List.filter_eq_nil_iff] using h

/-- All statements of all hypotheses, as texts. -/
def statements (m : Model) : List (List Char) :=
  (m.hypotheses.flatMap hypothesisLines).map String.toList

/-- The vote statements are found behind any part of the head. -/
theorem filter_isVoteLine_of_front {front : List String} (head : ∀ l ∈ front, l ∈ headLines m s) :
    ((front ++ prologueLines m ++ voteLines m ++ scanLines m).map String.toList).filter
      isVoteLine = statements m := by
  have votes : (statements m).filter isVoteLine = statements m := by
    rw [List.filter_eq_self, statements]
    intro line mem
    obtain ⟨l, all, rfl⟩ := List.mem_map.mp mem
    obtain ⟨h, -, hl⟩ := List.mem_flatMap.mp all
    exact isVoteLine_hypothesisLines h l hl
  simp only [voteLines, List.map_append, List.filter_append,
    filter_eq_nil_of_isVoteLine fun l hl => isVoteLine_headLines m s l (head l hl),
    filter_eq_nil_of_isVoteLine (isVoteLine_prologueLines m),
    filter_eq_nil_of_isVoteLine (isVoteLine_sumLines m),
    filter_eq_nil_of_isVoteLine (isVoteLine_scanLines m), List.nil_append, List.append_nil]
  exact votes

/-! Counting. -/

theorem length_hypothesisLines (h : Hypothesis) : (hypothesisLines h).length = h.votes.length := by
  simp [hypothesisLines]

theorem getElem?_hypothesisLines (h : Hypothesis) (slot : ℕ) :
    (hypothesisLines h)[slot]? = h.votes[slot]?.map (voteStatement h slot) := by
  simp [hypothesisLines, Function.comp_def]

/-- In a list of blocks of one size, division tells the block and the remainder the place in it. -/
theorem getElem?_flatMap {α β : Type} {f : α → List β} {n : ℕ} (pos : 0 < n) {xs : List α}
    (size : ∀ x ∈ xs, (f x).length = n) (k : ℕ) :
    (xs.flatMap f)[k]? = xs[k / n]?.bind fun x => (f x)[k % n]? := by
  induction xs generalizing k with
  | nil => simp
  | cons x xs ih =>
    rw [List.forall_mem_cons] at size
    rw [List.flatMap_cons]
    by_cases first : k < n
    · rw [List.getElem?_append_left (by omega), Nat.div_eq_of_lt first, Nat.mod_eq_of_lt first]
      rfl
    · have next : k / n = (k - n) / n + 1 := Nat.div_eq_sub_div pos (by omega)
      rw [List.getElem?_append_right (by omega), size.1, ih size.2, next,
        Nat.mod_eq_sub_mod (by omega : k ≥ n)]
      rfl

theorem sum_length_votes (m : Model) :
    (m.hypotheses.map fun h => h.votes.length).sum = m.voteStatementCount := by
  rw [List.map_congr_left m.votes_length, List.map_const', List.sum_replicate_nat, Nat.mul_comm]
  rfl

theorem length_statements (m : Model) : (statements m).length = m.voteStatementCount := by
  rw [statements, List.length_map, List.length_flatMap, ← sum_length_votes]
  simp only [length_hypothesisLines]

theorem classCount_pos (m : Model) : 0 < m.classCount :=
  List.length_pos_iff.mpr m.classes.ids_ne_nil

theorem getElem?_statements_eq (m : Model) (k : ℕ) :
    (statements m)[k]? = (m.hypotheses[k / m.classCount]?.bind fun h =>
      (hypothesisLines h)[k % m.classCount]?).map String.toList := by
  have size : ∀ h ∈ m.hypotheses, (hypothesisLines h).length = m.classCount := fun h hh =>
    (length_hypothesisLines h).trans (m.votes_length h hh)
  rw [statements, List.getElem?_map, getElem?_flatMap (classCount_pos m) size]

/-- The statement at place `k` is for class `k % N` of hypothesis `k / N`. -/
theorem getElem?_statements (m : Model) {k : ℕ} (below : k < m.voteStatementCount) :
    ∃ h vote, m.hypotheses[k / m.classCount]? = some h ∧ h.votes[k % m.classCount]? = some vote ∧
      (statements m)[k]? = some (voteStatement h (k % m.classCount) vote).toList := by
  have block : k / m.classCount < m.hypotheses.length :=
    Nat.div_lt_of_lt_mul below
  have count := m.votes_length _ (List.getElem_mem block)
  have place : k % m.classCount < m.hypotheses[k / m.classCount].votes.length :=
    count ▸ Nat.mod_lt k (classCount_pos m)
  refine ⟨_, _, List.getElem?_eq_getElem block, List.getElem?_eq_getElem place, ?_⟩
  rw [getElem?_statements_eq, List.getElem?_eq_getElem block, Option.bind_some,
    getElem?_hypothesisLines, List.getElem?_eq_getElem place]
  rfl

theorem length_sourceLines (m : Model) (s : Settings) :
    (sourceLines m s).length = 22 + m.aliases.length + m.voteStatementCount := by
  have votes : (m.hypotheses.flatMap hypothesisLines).length = m.voteStatementCount := by
    rw [← length_statements, statements, List.length_map]
  simp only [sourceLines, headLines, prologueLines, voteLines, scanLines, Feature.all,
    List.length_append, List.length_map, List.length_cons, List.length_nil, votes]
  omega

theorem voteLinesOf_eq (h : m.HasNoLineEnds) (one_line : '\n' ∉ s.headerFile.toList) :
    voteLinesOf (source m s).toList = statements m := by
  rw [voteLinesOf, linesOf_source h one_line]
  exact filter_isVoteLine_of_front fun _ hl => hl

/-- A source has a line for every alias and for every vote, and twenty-two others; the second one is
the table of the classes. The lines that look like vote statements are those of the model, in the
order of its hypotheses and of its classes. There are as many of them as there are votes in the
model, which is the number that a report gives. -/
theorem source_statements (h : m.HasNoLineEnds) (one_line : '\n' ∉ s.headerFile.toList) :
    (linesOf (source m s).toList).length =
        22 + m.aliases.length + m.classCount * m.hypothesisCount ∧
      (voteLinesOf (source m s).toList).length = m.classCount * m.hypothesisCount ∧
      (∀ k < m.classCount * m.hypothesisCount, ∃ g vote,
        m.hypotheses[k / m.classCount]? = some g ∧ g.votes[k % m.classCount]? = some vote ∧
          (voteLinesOf (source m s).toList)[k]? =
            some (voteStatement g (k % m.classCount) vote).toList) ∧
      (linesOf (source m s).toList)[1]? = some ("static int classes[" ++ toString m.classCount ++
        "] = \x7b" ++ ", ".intercalate m.classes.ids ++ "\x7d;").toList ∧
      m.voteStatementCount = (voteLinesOf (source m s).toList).length ∧
      m.voteStatementCount = (m.hypotheses.map fun g => g.votes.length).sum ∧
      (∀ (w w' : Workspace) (report : Report), (write s m : Run Report) w = (.ok report, w') →
        report.voteStatementCount = m.voteStatementCount) ∧
      ∀ (w w' : Workspace) (path : String) (report : Report),
        ((readModel path : Run Model) w).1 = .ok m →
        (run s path : Run Report) w = (.ok report, w') →
          report.voteStatementCount = m.voteStatementCount := by
  have lines := linesOf_source h one_line
  have votes := voteLinesOf_eq h one_line
  have count : (voteLinesOf (source m s).toList).length = m.voteStatementCount := by
    rw [votes, length_statements]
  refine ⟨?_, count, ?_, ?_, count.symm, (sum_length_votes m).symm, ?_, ?_⟩
  · rw [lines, List.length_map, length_sourceLines]
    rfl
  · intro k below
    rw [votes]
    exact getElem?_statements m below
  · rw [lines]
    rfl
  · intro w w' report written
    rw [(Generation.write_eq_ok written).1]
    rfl
  · intro w w' path report read ran
    obtain ⟨-, m', read', v, -, written⟩ := Generation.run_eq_ok ran
    obtain rfl : m = m' := Except.ok.inj (read.symm.trans read')
    rw [(Generation.write_eq_ok written).1]
    rfl

/-- The numbers, an identifier and a column look like statements. -/
def disguisedModel : Model where
  classes := ⟨["votes[0] += 1;", "7"], by decide⟩
  hypotheses := [
    ⟨"1; votes[0] += 1", "votes[1]", ⟨.topPosition, "= votes[1] += 1;"⟩, ["+=", " votes[0] +="]⟩,
    ⟨"", "+=", ⟨.aspectRatio, "AspectRatio"⟩, ["votes[", ""]⟩]
  hypotheses_ne_nil := by decide
  votes_length := by decide

theorem source_statements_disguised :
    disguisedModel.HasNoLineEnds ∧ '\n' ∉ Settings.default.headerFile.toList ∧
      (linesOf (source disguisedModel .default).toList).length = 27 ∧
      (voteLinesOf (source disguisedModel .default).toList).length = 4 ∧
      (voteLinesOf (source disguisedModel .default).toList)[2]? =
        some "  votes[0] +=  * (+= < valueAspectRatio ? votes[ : -(votes[));".toList := by
  have ends : disguisedModel.HasNoLineEnds := ⟨by decide, by decide⟩
  have one_line : '\n' ∉ Settings.default.headerFile.toList := by decide
  obtain ⟨lines, count, statement, -⟩ := source_statements ends one_line
  refine ⟨ends, one_line, lines, count, ?_⟩
  obtain ⟨g, vote, hypothesis, cast, text⟩ := statement 2 (by decide)
  obtain rfl := Option.some.inj hypothesis
  obtain rfl := Option.some.inj cast
  exact text

end StumpCompiler.Cpp
