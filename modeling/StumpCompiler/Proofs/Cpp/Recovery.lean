import StumpCompiler.Proofs.Cpp.SourceLines

/-! A generated source is read back: the name of the header, the identifiers of the classes and all
hypotheses stand in its text. So one text belongs to one model. -/

namespace StumpCompiler.Cpp

/-- What a vote statement says. -/
structure VoteLine where
  /-- It is for the first class, so it is the first statement of its hypothesis. -/
  opens : Bool
  alpha : String
  threshold : String
  feature : FeatureRef
  vote : String

namespace VoteLine

/-- The statement that casts `vote` for the class in `slot`. -/
def ofVote (h : Hypothesis) (slot : ℕ) (vote : String) : VoteLine :=
  ⟨slot = 0, h.alpha, h.threshold, h.feature, vote⟩

/-- The statement with the given words. -/
def ofWords? : List (List Char) → Option VoteLine
  | [_, _, sum, _, alpha, _, _ :: threshold, _, value, _, vote, _, _] =>
    (FeatureRef.resolve? (String.ofList (value.drop "value".length))).map fun feature =>
      ⟨sum = "votes[0]".toList, String.ofList alpha, String.ofList threshold, feature,
        String.ofList vote⟩
  | _ => none

/-- No other line of a source starts with two blanks and a `v`. -/
def read? : List Char → Option VoteLine
  | ' ' :: ' ' :: 'v' :: rest => ofWords? ((' ' :: ' ' :: 'v' :: rest).splitOn ' ')
  | _ => none

/-- Puts a statement in front of what the later ones gave: the votes of a hypothesis whose first
statement is still to come, and the hypotheses behind it. -/
def gather (v : VoteLine) (later : List String × List Hypothesis) : List String × List Hypothesis :=
  if v.opens then ([], ⟨v.alpha, v.threshold, v.feature, v.vote :: later.1⟩ :: later.2)
  else (v.vote :: later.1, later.2)

end VoteLine

/-- The name in a line that includes a header. -/
def includedFile (line : List Char) : String :=
  String.ofList (line.drop "#include \"".length).dropLast

/-- The identifiers in the line of the class table: between the braces, cut at the commas, each of
which has a blank behind it. -/
def tableIds (line : List Char) : List String :=
  match ((line.dropWhile (· ≠ '\x7b')).tail.dropLast.dropLast).splitOn ',' with
  | [] => []
  | first :: rest => String.ofList first :: rest.map fun id => String.ofList id.tail

/-- What a source was made of. -/
structure Origin where
  headerFile : String
  ids : List String
  hypotheses : List Hypothesis
  deriving DecidableEq

def Origin.ofSource? (text : List Char) : Option Origin :=
  match text.splitOn '\n' with
  | header :: table :: rest =>
    some ⟨includedFile header, tableIds table, ((rest.filterMap VoteLine.read?).foldr
      VoteLine.gather ([], [])).2⟩
  | _ => none

variable {m m' : Model} {s s' : Settings} {h : Hypothesis} {vote : String} {slot : ℕ}

/-! Vote statements. -/

/-- The words of a vote statement. -/
def voteWords (h : Hypothesis) (slot : ℕ) (vote : String) : List (List Char) :=
  [[], [], "votes[".toList ++ (toString slot).toList ++ "]".toList, "+=".toList, h.alpha.toList,
    "*".toList, "(".toList ++ h.threshold.toList, "<".toList,
    "value".toList ++ h.feature.column.toList, "?".toList, vote.toList, ":".toList,
    "-(".toList ++ vote.toList ++ "));".toList]

theorem toList_voteStatement (h : Hypothesis) (slot : ℕ) (vote : String) :
    (voteStatement h slot vote).toList = [' '].intercalate (voteWords h slot vote) := by
  unfold voteStatement valueIdentifier voteWords
  simp only [String.toList_append]
  simp [List.intercalate]

theorem splitOn_voteStatement (resolved : h.feature.IsResolved) (alpha : ' ' ∉ h.alpha.toList)
    (threshold : ' ' ∉ h.threshold.toList) (text : ' ' ∉ vote.toList) :
    (voteStatement h slot vote).toList.splitOn ' ' = voteWords h slot vote := by
  have column : ' ' ∉ h.feature.column.toList := not_mem_column resolved (by decide)
  rw [toList_voteStatement, List.splitOn_intercalate]
  · simp [voteWords, not_mem_toDigits, alpha, threshold, text, column]
  · simp [voteWords]

theorem toDigits_eq_zero_iff {n : ℕ} : Nat.toDigits 10 n = ['0'] ↔ n = 0 := by
  rw [← Nat.toList_repr, show ['0'] = (Nat.repr 0).toList by decide, String.toList_inj]
  exact ⟨fun same => Nat.repr_injective same, fun zero => by rw [zero]⟩

theorem ofWords?_voteWords (resolved : h.feature.IsResolved) :
    VoteLine.ofWords? (voteWords h slot vote) = some (.ofVote h slot vote) := by
  have column : FeatureRef.resolve? h.feature.column = some h.feature := resolved
  have sum : "votes[".toList ++ (toString slot).toList ++ "]".toList = "votes[0]".toList ↔
      slot = 0 := by
    rw [← toDigits_eq_zero_iff, show "votes[0]".toList = "votes[".toList ++ ['0'] ++ "]".toList by
      decide, List.append_left_inj, List.append_right_inj, Nat.toString_eq_repr, Nat.toList_repr]
  calc VoteLine.ofWords? (voteWords h slot vote)
      = (FeatureRef.resolve? (String.ofList h.feature.column.toList)).map fun feature =>
          ⟨"votes[".toList ++ (toString slot).toList ++ "]".toList = "votes[0]".toList,
            String.ofList h.alpha.toList, String.ofList h.threshold.toList, feature,
            String.ofList vote.toList⟩ := rfl
    _ = some (.ofVote h slot vote) := by
        simp only [String.ofList_toList, column, sum, Option.map_some, VoteLine.ofVote]

theorem read?_voteStatement (resolved : h.feature.IsResolved) (alpha : ' ' ∉ h.alpha.toList)
    (threshold : ' ' ∉ h.threshold.toList) (text : ' ' ∉ vote.toList) :
    VoteLine.read? (voteStatement h slot vote).toList = some (.ofVote h slot vote) := by
  obtain ⟨rest, starts⟩ :
      ∃ rest, (voteStatement h slot vote).toList = ' ' :: ' ' :: 'v' :: rest :=
    ⟨_, toList_voteStatement h slot vote⟩
  rw [starts, VoteLine.read?, ← starts, splitOn_voteStatement resolved alpha threshold text,
    ofWords?_voteWords resolved]

/-! The other lines. -/

theorem read?_headLines (m : Model) (s : Settings) :
    ∀ l ∈ (headLines m s).drop 2, VoteLine.read? l.toList = none := by
  simp [headLines]
  decide

theorem read?_prologueLines (m : Model) :
    ∀ l ∈ prologueLines m, VoteLine.read? l.toList = none := by
  intro l hl
  simp only [prologueLines, List.mem_append, List.mem_map] at hl
  rcases hl with (⟨f, -, rfl⟩ | ⟨f, -, rfl⟩) | ⟨r, -, rfl⟩
  · cases f <;> decide
  · cases f <;> decide
  · simp only [aliasLine, String.toList_append]
    rfl

theorem read?_scanLines (m : Model) : ∀ l ∈ scanLines m, VoteLine.read? l.toList = none := by
  simp only [scanLines, List.forall_mem_cons, String.toList_append]
  exact ⟨rfl, rfl, rfl, rfl, rfl, rfl, rfl, rfl, rfl, List.forall_mem_nil _⟩

theorem filterMap_read?_eq_nil {lines : List String}
    (h : ∀ l ∈ lines, VoteLine.read? l.toList = none) :
    (lines.map String.toList).filterMap VoteLine.read? = [] := by
  simpa [List.filterMap_eq_nil_iff] using h

/-! The vote statements of all hypotheses. -/

/-- What the vote statements of a hypothesis say. -/
def VoteLine.ofHypothesis (h : Hypothesis) : List VoteLine :=
  h.votes.zipIdx.map fun (vote, slot) => .ofVote h slot vote

theorem filterMap_read?_hypothesisLines (resolved : h.feature.IsResolved)
    (alpha : ' ' ∉ h.alpha.toList) (threshold : ' ' ∉ h.threshold.toList)
    (votes : ∀ v ∈ h.votes, ' ' ∉ v.toList) :
    ((hypothesisLines h).map String.toList).filterMap VoteLine.read? =
      VoteLine.ofHypothesis h := by
  rw [hypothesisLines, List.map_map, List.filterMap_map, VoteLine.ofHypothesis,
    ← List.filterMap_eq_map]
  refine List.filterMap_congr fun ⟨vote, slot⟩ mem => ?_
  simp only [Function.comp_apply]
  exact read?_voteStatement resolved alpha threshold
    (votes vote (List.fst_mem_of_mem_zipIdx mem))

theorem filterMap_read?_voteLines (h : m.IsSeparable) (resolved : m.IsResolved) :
    ((voteLines m).map String.toList).filterMap VoteLine.read? =
      m.hypotheses.flatMap VoteLine.ofHypothesis := by
  have sums : ∀ l ∈ ["  double votes[" ++ toString m.classCount ++ "] = \x7b0\x7d;", ""],
      VoteLine.read? l.toList = none := by
    simp only [List.forall_mem_cons, String.toList_append]
    exact ⟨rfl, rfl, List.forall_mem_nil _⟩
  rw [voteLines, List.map_append, List.filterMap_append, filterMap_read?_eq_nil sums,
    List.nil_append, List.map_flatMap, List.filterMap_flatMap]
  refine List.flatMap_congr fun g hg => ?_
  exact filterMap_read?_hypothesisLines (resolved g hg) (h.alpha g hg).1 (h.threshold g hg).1
    fun v hv => (h.votes g hg v hv).1

/-- Statements for later slots only lay up their votes. -/
theorem foldr_gather_succ (h : Hypothesis) (votes : List String) (k : ℕ)
    (later : List String × List Hypothesis) :
    ((votes.zipIdx (k + 1)).map fun (vote, slot) => VoteLine.ofVote h slot vote).foldr
      VoteLine.gather later = (votes ++ later.1, later.2) := by
  induction votes generalizing k with
  | nil => rfl
  | cons v votes ih =>
    -- no slot is zero, so no statement opens a hypothesis
    rw [List.zipIdx_cons, List.map_cons, List.foldr_cons, ih]
    simp [VoteLine.gather, VoteLine.ofVote]

theorem foldr_gather_ofHypothesis (voted : h.votes ≠ []) (hs : List Hypothesis) :
    (VoteLine.ofHypothesis h).foldr VoteLine.gather ([], hs) = ([], h :: hs) := by
  rw [VoteLine.ofHypothesis]
  obtain ⟨alpha, threshold, feature, votes⟩ := h
  cases votes with
  | nil => exact absurd rfl voted
  | cons v votes =>
    rw [List.zipIdx_cons, List.map_cons, List.foldr_cons, foldr_gather_succ]
    simp [VoteLine.gather, VoteLine.ofVote]

theorem foldr_gather_flatMap {hs : List Hypothesis} (voted : ∀ h ∈ hs, h.votes ≠ []) :
    (hs.flatMap VoteLine.ofHypothesis).foldr VoteLine.gather ([], []) = ([], hs) := by
  induction hs with
  | nil => rfl
  | cons h hs ih =>
    rw [List.forall_mem_cons] at voted
    rw [List.flatMap_cons, List.foldr_append, ih voted.2, foldr_gather_ofHypothesis voted.1]

/-! The head. -/

theorem includedFile_line (name : String) :
    includedFile ("#include \"" ++ name ++ "\"").toList = name := by
  have cut : ("#include \"" ++ name ++ "\"").toList.drop "#include \"".length =
      name.toList ++ ['"'] := by
    simp only [String.toList_append]
    rfl
  rw [includedFile, cut, List.dropLast_concat, String.ofList_toList]

/-- Texts without commas are found again in a list of them with a comma and a blank in between; the
blanks stay with all but the first. -/
theorem splitOn_intercalate_comma {l : List Char} {ls : List (List Char)} (first : ',' ∉ l)
    (others : ∀ l' ∈ ls, ',' ∉ l') :
    ([',', ' '].intercalate (l :: ls)).splitOn ',' = l :: ls.map (' ' :: ·) := by
  induction ls generalizing l with
  | nil => simp [List.splitOn_eq_singleton first]
  | cons next ls ih =>
    rw [List.forall_mem_cons] at others
    -- the blank behind the comma is taken for the beginning of the next text
    have moved : ' ' :: [',', ' '].intercalate (next :: ls) =
        [',', ' '].intercalate ((' ' :: next) :: ls) := by
      cases ls <;> simp [List.intercalate_cons_cons]
    rw [List.intercalate_cons_cons, List.append_assoc, List.cons_append, List.cons_append,
      List.nil_append, List.splitOn_append_cons_self, List.splitOn_eq_singleton first, moved,
      ih (by simp [others.1]) others.2]
    simp

/-- What stands between the braces of the class table. -/
theorem between_braces (n : ℕ) (ids : List String) :
    (("static int classes[" ++ toString n ++ "] = \x7b" ++ ", ".intercalate ids ++
      "\x7d;").toList.dropWhile (· ≠ '\x7b')).tail.dropLast.dropLast =
      [',', ' '].intercalate (ids.map String.toList) := by
  have no_brace : '\x7b' ∉ "static int classes[".toList ++ Nat.toDigits 10 n ++ "] = ".toList := by
    simp [not_mem_toDigits]
  have before : ∀ c ∈ "static int classes[".toList ++ Nat.toDigits 10 n ++ "] = ".toList,
      decide (c ≠ '\x7b') = true := fun c mem => decide_eq_true (ne_of_mem_of_not_mem mem no_brace)
  have parts : ("static int classes[" ++ toString n ++ "] = \x7b" ++ ", ".intercalate ids ++
      "\x7d;").toList = ("static int classes[".toList ++ Nat.toDigits 10 n ++ "] = ".toList) ++
        '\x7b' :: ([',', ' '].intercalate (ids.map String.toList) ++ ['\x7d'] ++ [';']) := by
    simp [String.toList_intercalate]
  rw [parts, List.dropWhile_append_of_pos before, List.dropWhile_cons_of_neg (by decide),
    List.tail_cons, List.dropLast_concat, List.dropLast_concat]

theorem tableIds_line {ids : List String} (n : ℕ) (some_id : ids ≠ [])
    (h : ∀ id ∈ ids, ',' ∉ id.toList) :
    tableIds ("static int classes[" ++ toString n ++ "] = \x7b" ++ ", ".intercalate ids ++
      "\x7d;").toList = ids := by
  rw [tableIds, between_braces]
  cases ids with
  | nil => exact absurd rfl some_id
  | cons first rest =>
    rw [List.forall_mem_cons] at h
    rw [List.map_cons, splitOn_intercalate_comma h.1 (by simpa using h.2)]
    simp [Function.comp_def]

/-- What was put into a source is read from its text. -/
theorem ofSource?_source (h : m.IsSeparable) (resolved : m.IsResolved)
    (one_line : '\n' ∉ s.headerFile.toList) :
    Origin.ofSource? (source m s).toList = some ⟨s.headerFile, m.classes.ids, m.hypotheses⟩ := by
  have voted : ∀ g ∈ m.hypotheses, g.votes ≠ [] := fun g hg none_left => by
    have count := m.votes_length g hg
    rw [none_left, List.length_nil, ClassSet.size, eq_comm, List.length_eq_zero_iff] at count
    exact m.classes.ids_ne_nil count
  have split : sourceLines m s = ("#include \"" ++ s.headerFile ++ "\"") ::
      ("static int classes[" ++ toString m.classCount ++ "] = \x7b" ++
        ", ".intercalate m.classes.ids ++ "\x7d;") ::
      ((headLines m s).drop 2 ++ prologueLines m ++ voteLines m ++ scanLines m) := rfl
  have votes : (((headLines m s).drop 2 ++ prologueLines m ++ voteLines m ++ scanLines m).map
      String.toList ++ [[]]).filterMap VoteLine.read? =
        m.hypotheses.flatMap VoteLine.ofHypothesis := by
    simp only [List.map_append, List.filterMap_append, filterMap_read?_voteLines h resolved,
      filterMap_read?_eq_nil (read?_headLines m s), filterMap_read?_eq_nil (read?_prologueLines m),
      filterMap_read?_eq_nil (read?_scanLines m), List.nil_append]
    simp [VoteLine.read?]
  rw [Origin.ofSource?, splitOn_source (hasNoLineEnds_of_isSeparable h resolved) one_line, split,
    List.map_cons, List.map_cons, List.cons_append, List.cons_append]
  simp only [votes, includedFile_line, foldr_gather_flatMap voted,
    tableIds_line m.classCount m.classes.ids_ne_nil fun id mem => (h.ids id mem).1]

/-- Of the settings, a source needs the name of the header alone. -/
theorem source_congr (header : s.headerFile = s'.headerFile) : source m s = source m s' := by
  simp only [source, sourceListing, sourceLines, headLines, header]

theorem model_eq_of_ids_eq (ids : m.classes.ids = m'.classes.ids)
    (hypotheses : m.hypotheses = m'.hypotheses) : m = m' := by
  obtain ⟨⟨_, _⟩, _, _, _⟩ := m
  obtain ⟨⟨_, _⟩, _, _, _⟩ := m'
  subst ids hypotheses
  rfl

/-- A source determines what it was made of: the header it includes, and the model with all
identifiers, spellings and numbers. They are read back from the text alone. Plain models are
separable. -/
theorem source_eq_source_iff (h : m.IsSeparable) (resolved : m.IsResolved)
    (one_line : '\n' ∉ s.headerFile.toList) (h' : m'.IsSeparable) (resolved' : m'.IsResolved)
    (one_line' : '\n' ∉ s'.headerFile.toList) :
    (source m s = source m' s' ↔ s.headerFile = s'.headerFile ∧ m = m') ∧
      Origin.ofSource? (source m s).toList =
        some ⟨s.headerFile, m.classes.ids, m.hypotheses⟩ := by
  have read := ofSource?_source h resolved one_line
  refine ⟨⟨fun same => ?_, ?_⟩, read⟩
  · rw [same, ofSource?_source h' resolved' one_line', Option.some_inj, Origin.mk.injEq] at read
    obtain ⟨header, ids, hypotheses⟩ := read
    exact ⟨header.symm, model_eq_of_ids_eq ids.symm hypotheses.symm⟩
  · rintro ⟨header, rfl⟩
    exact source_congr header

/-- Two rounds for two classes. -/
def twoRounds : Model where
  classes := ⟨["north_1", "south"], by decide⟩
  hypotheses := [
    ⟨"0.5", "1.2", ⟨.aspectRatio, "aspectRatio"⟩, ["1", "-1"]⟩,
    ⟨"0.25", "-3e+2", ⟨.topPosition, "TopPosition"⟩, ["-2", "2"]⟩]
  hypotheses_ne_nil := by decide
  votes_length := by decide

/-- The same rounds the other way round. -/
def twoRoundsReversed : Model where
  classes := twoRounds.classes
  hypotheses := twoRounds.hypotheses.reverse
  hypotheses_ne_nil := by decide
  votes_length := by decide

/-- The order of the rounds shows. -/
theorem source_twoRounds_ne :
    source twoRounds .default ≠ source twoRoundsReversed .default ∧
      Origin.ofSource? (source twoRounds .default).toList =
        some ⟨"classifier.h", ["north_1", "south"], twoRounds.hypotheses⟩ := by
  have plain : twoRounds.IsPlain := by simp [Model.IsPlain, Model.texts, twoRounds]
  have reversed : twoRoundsReversed.IsPlain := by
    simp [Model.IsPlain, Model.texts, twoRoundsReversed, twoRounds]
  have one_line : '\n' ∉ Settings.default.headerFile.toList := by decide
  obtain ⟨same_iff, read⟩ := source_eq_source_iff plain.isSeparable (by decide) one_line
    reversed.isSeparable (by decide) one_line
  refine ⟨fun same => ?_, read⟩
  exact absurd (same_iff.mp same).2 (by decide)

end StumpCompiler.Cpp
