import StumpCompiler.Proofs.Cpp.SourceTokens
import StumpCompiler.Proofs.Settings

/-! The include guard is a macro in both artifacts, and any identifier is accepted for it. It
rewrites the generated code if it is one of the words there: these are the same for every model but
for the names of the values, and no name of a file adds to them unless it has a line end. -/

namespace StumpCompiler.Cpp

open Token (word number symbol)

variable {m : Model} {s : Settings} {file name : String} {cs front back : List Char}
  {ts us : List Token}

/-! Directives. -/

/-- The line that includes a file. -/
def including (file : String) : String :=
  "#include \"" ++ file ++ "\""

theorem isWordChar_of_isIdentifier (h : Settings.isIdentifier name) :
    ∀ c ∈ name.toList, isWordChar c := by
  rw [Settings.isIdentifier] at h
  intro c hc
  split at h
  · next empty => simp [empty] at hc
  · next first rest eq =>
    simp only [Bool.and_eq_true, List.all_eq_true] at h
    rw [eq] at hc
    rcases List.mem_cons.mp hc with rfl | hc
    · have start := h.1
      grind [isWordChar, Char.isAlphanum]
    · have inner := h.2 c hc
      grind [isWordChar]

theorem lexes_plain_directive (plain : ∀ c ∈ cs, c ≠ '\n' ∧ c ≠ '\\') :
    Lexes (.directive false) cs [] (.directive false) := by
  induction cs with
  | nil => exact .nil _
  | cons c cs ih =>
    rw [List.forall_mem_cons] at plain
    have first : Lexes (.directive false) [c] [] (.directive false) := by
      intro done
      simp [Lexer.step, plain.1.1, plain.1.2]
    exact first.cons (ih plain.2)

/-- A directive without a line end and without a backslash. -/
theorem lexesLine_directive {text : String} (plain : ∀ c ∈ text.toList, c ≠ '\n' ∧ c ≠ '\\') :
    LexesLine ("#" ++ text) [] := by
  have first : Lexes (.gap true) "#".toList [] (.directive false) := .of_run rfl
  have last : Lexes (.directive false) "\n".toList [] (.gap true) := .of_run rfl
  simpa [LexesLine, ended] using (first.append (lexes_plain_directive plain)).append last

/-- A quotation mark can only stand in a directive. -/
theorem step_quote {l l' : Lexer} (h : Lexer.step l '"' = some l') :
    l' = ⟨.directive false, l.done⟩ := by
  have no_token (fresh : Bool) (done : List Token) : Lexer.begin fresh done '"' = none := by
    cases fresh <;> rfl
  obtain ⟨pending, done⟩ := l
  cases pending with
  | directive escaped => simpa [Lexer.step, eq_comm] using h
  | gap fresh => simp [Lexer.step, no_token] at h
  | word text => simp [Lexer.step, no_token, isWordChar] at h
  | number text exponent => simp [Lexer.step, no_token, extendsNumber, isWordChar] at h
  | dot => simp [Lexer.step, no_token] at h
  | operator o => simp [Lexer.step, no_token, compounds] at h

/-- Behind the line nothing is pending, whatever the name of the file brings along. -/
theorem pending_of_including {l : Lexer} {start : Lexer}
    (h : (ended (including file)).foldlM Lexer.step start = some l) : l.pending = .gap true := by
  have split : ended (including file) = ("#include \"" ++ file).toList ++ ['"', '\n'] := by
    simp [ended, including]
  rw [split, List.foldlM_append] at h
  obtain ⟨before, -, h⟩ := Option.bind_eq_some_iff.mp h
  rw [List.foldlM_cons] at h
  obtain ⟨quoted, first, h⟩ := Option.bind_eq_some_iff.mp h
  obtain rfl := step_quote first
  obtain rfl : _ = l := Option.some.inj h
  rfl

/-- The line gives its own tokens, and the text around it gives what it would give alone. -/
theorem tokens?_including (file : String) (first : Lexes (.gap true) front [] (.gap true))
    (last : Lexes (.gap true) back ts (.gap true)) :
    tokens? (front ++ (ended (including file) ++ back)) =
      (tokens? (ended (including file))).map (· ++ ts) := by
  rw [tokens?, tokens?, List.foldlM_append, first []]
  cases ran : (ended (including file)).foldlM Lexer.step ⟨.gap true, []⟩ with
  | none => simp [List.foldlM_append, ran]
  | some l =>
    have pending := pending_of_including ran
    obtain ⟨_, done⟩ := l
    obtain rfl := pending
    simp [List.foldlM_append, ran, last done, Pending.token?]

/-! Words. -/

/-- The words of the declaration in a header. -/
def headerWords : List String :=
  ["int", "classify", "objs_t", "size_t"]

/-- The names that a source has for a feature, apart from further spellings. -/
def featureWords (f : Feature) : List String :=
  [f.descriptorType, f.variableName, valueIdentifier f.columnName]

/-- The words that every source has, apart from those for the features. -/
def codeWords : List String :=
  ["static", "int", "classes", "classify", "objs_t", "objs", "size_t", "subject", "double",
    "describe", "votes", "max", "best", "for", "i", "if", "return"]

/-- The words of a source: those of every source, and a name for the value of each spelling that the
model has. -/
def sourceWords (m : Model) : List String :=
  codeWords ++ Feature.all.flatMap featureWords ++
    m.hypotheses.map fun h => valueIdentifier h.feature.column

def headerTokens : List Token :=
  [word "int", word "classify", symbol "(", word "objs_t", symbol "&", symbol ",", word "size_t",
    symbol ")", symbol ";"]

theorem word_not_mem_signedTokens (name text : String) : word name ∉ signedTokens text := by
  unfold signedTokens signTokens
  split <;> simp

theorem word_not_mem_idTokens (name : String) (ids : List String) : word name ∉ idTokens ids := by
  induction ids with
  | nil => simp [idTokens]
  | cons id ids ih =>
    cases ids with
    | nil => exact word_not_mem_signedTokens name id
    | cons next ids => simp [idTokens, word_not_mem_signedTokens, ih]

/-- The words in front of the first statement. -/
def headWords : List String :=
  ["static", "int", "classes", "classify", "objs_t", "objs", "size_t", "subject"]

/-- The words around the value of a feature. -/
def valueWords : List String :=
  ["double", "describe", "objs", "subject"]

def sumsWords : List String :=
  ["double", "votes"]

/-- The words behind the votes. -/
def scanWords : List String :=
  ["double", "max", "votes", "size_t", "best", "for", "i", "if", "return", "classes"]

theorem mem_codeWords_iff : name ∈ codeWords ↔
    name ∈ headWords ∨ name ∈ valueWords ∨ name ∈ sumsWords ∨ name ∈ scanWords := by
  have parts : codeWords ⊆ headWords ++ valueWords ++ sumsWords ++ scanWords := by decide
  have whole : headWords ++ valueWords ++ sumsWords ++ scanWords ⊆ codeWords := by decide
  have same : name ∈ codeWords ↔ name ∈ headWords ++ valueWords ++ sumsWords ++ scanWords :=
    ⟨fun mem => parts mem, fun mem => whole mem⟩
  simpa only [List.mem_append, or_assoc] using same

theorem word_mem_headTokens_iff : word name ∈ headTokens m ↔ name ∈ headWords := by
  simp only [headWords, headTokens, tableTokens, signatureTokens, List.mem_append, List.mem_cons,
    word_not_mem_idTokens, Token.word.injEq, reduceCtorEq, List.not_mem_nil, false_or, or_false]
  tauto

theorem mem_featureWords_iff : name ∈ Feature.all.flatMap featureWords ↔
    ∃ f : Feature, name ∈ featureWords f := by
  rw [List.mem_flatMap]
  refine exists_congr fun f => and_iff_right ?_
  cases f <;> decide

theorem word_mem_descriptorTokens_iff {f : Feature} : word name ∈ descriptorTokens f ↔
    name = f.descriptorType ∨ name = f.variableName := by
  simp [descriptorTokens]

theorem word_mem_valueTokens_iff {f : Feature} : word name ∈ valueTokens f ↔
    name ∈ valueWords ∨ name = f.variableName ∨
      name = valueIdentifier f.columnName := by
  simp only [valueWords, valueTokens, List.mem_cons, Token.word.injEq, reduceCtorEq,
    List.not_mem_nil, false_or, or_false]
  tauto

theorem word_mem_aliasTokens_iff {r : FeatureRef} : word name ∈ aliasTokens r ↔
    name = "double" ∨ name = valueIdentifier r.column ∨
      name = valueIdentifier r.feature.columnName := by
  simp [aliasTokens]

theorem word_mem_prologueTokens_iff : word name ∈ prologueTokens m ↔
    name ∈ valueWords ∨ name ∈ Feature.all.flatMap featureWords ∨
      ∃ r ∈ m.aliases, name = valueIdentifier r.column := by
  have all (f : Feature) : f ∈ Feature.all := by cases f <;> decide
  rw [mem_featureWords_iff, prologueTokens]
  simp only [List.mem_append, List.mem_flatMap, word_mem_descriptorTokens_iff,
    word_mem_valueTokens_iff, word_mem_aliasTokens_iff, all, true_and, featureWords]
  constructor
  · rintro ((⟨f, type | object⟩ | ⟨f, always | object | value⟩) |
      ⟨r, hr, double | value | value⟩)
    · exact .inr (.inl ⟨f, by simp [type]⟩)
    · exact .inr (.inl ⟨f, by simp [object]⟩)
    · exact .inl always
    · exact .inr (.inl ⟨f, by simp [object]⟩)
    · exact .inr (.inl ⟨f, by simp [value]⟩)
    · exact .inl (by simp [double, valueWords])
    · exact .inr (.inr ⟨r, hr, value⟩)
    · exact .inr (.inl ⟨r.feature, by simp [value]⟩)
  · rintro (always | ⟨f, named⟩ | ⟨r, hr, value⟩)
    · exact .inl (.inr ⟨.aspectRatio, .inl always⟩)
    · simp only [List.mem_cons, List.not_mem_nil, or_false] at named
      rcases named with type | object | value
      · exact .inl (.inl ⟨f, .inl type⟩)
      · exact .inl (.inl ⟨f, .inr object⟩)
      · exact .inl (.inr ⟨f, .inr (.inr value)⟩)
    · exact .inr ⟨r, hr, .inr (.inl value)⟩

theorem word_mem_voteTokens_iff {h : Hypothesis} {slot : ℕ} {vote : String} :
    word name ∈ voteTokens h slot vote ↔
      name = "votes" ∨ name = valueIdentifier h.feature.column := by
  simp [voteTokens, choiceTokens, word_not_mem_signedTokens]

theorem word_mem_votesTokens_iff : word name ∈ votesTokens m ↔
    name ∈ sumsWords ∨ ∃ h ∈ m.hypotheses, name = valueIdentifier h.feature.column := by
  have sums : word name ∈ sumsTokens m ↔ name ∈ sumsWords := by simp [sumsTokens, sumsWords]
  rw [votesTokens, List.mem_append, sums]
  simp only [List.mem_flatMap, Prod.exists, word_mem_voteTokens_iff]
  constructor
  · rintro (sum | ⟨h, hh, vote, slot, -, votes | value⟩)
    · exact .inl sum
    · exact .inl (by simp [votes, sumsWords])
    · exact .inr ⟨h, hh, value⟩
  · rintro (sum | ⟨h, hh, value⟩)
    · exact .inl sum
    · -- There is a vote for each class, and there is a class.
      have votes : 0 < h.votes.length := by
        rw [m.votes_length h hh]
        exact List.length_pos_iff.mpr m.classes.ids_ne_nil
      have first : (h.votes[0], 0) ∈ h.votes.zipIdx := by
        rw [List.mk_mem_zipIdx_iff_getElem?]
        exact List.getElem?_eq_getElem votes
      exact .inr ⟨h, hh, h.votes[0], 0, first, .inr value⟩

theorem word_mem_scanTokens_iff : word name ∈ scanTokens m ↔
    name ∈ scanWords := by
  simp only [scanWords, scanTokens, maxTokens, bestTokens, loopTokens, loopHeadTokens, keepMaxTokens,
    keepBestTokens, resultTokens, List.mem_append, List.mem_cons, Token.word.injEq, reduceCtorEq,
    List.not_mem_nil, false_or, or_false]
  tauto

theorem word_mem_sourceTokens_iff : word name ∈ sourceTokens m ↔ name ∈ sourceWords m := by
  have aliases : (∃ r ∈ m.aliases, name = valueIdentifier r.column) →
      ∃ h ∈ m.hypotheses, name = valueIdentifier h.feature.column := by
    rintro ⟨r, hr, value⟩
    obtain ⟨h, hh, rfl⟩ := List.mem_map.mp (Model.mem_of_mem_spellings hr).1
    exact ⟨h, hh, value⟩
  have columns : name ∈ (m.hypotheses.map fun h => valueIdentifier h.feature.column) ↔
      ∃ h ∈ m.hypotheses, name = valueIdentifier h.feature.column := by
    simp only [List.mem_map, eq_comm]
  simp only [sourceTokens, sourceWords, List.mem_append, word_mem_headTokens_iff,
    word_mem_prologueTokens_iff, word_mem_votesTokens_iff, word_mem_scanTokens_iff, columns,
    mem_codeWords_iff]
  constructor
  · rintro (((head | values | feature | spelled) | sums | column) | scan)
    · exact .inl (.inl (.inl head))
    · exact .inl (.inl (.inr (.inl values)))
    · exact .inl (.inr feature)
    · exact .inr (aliases spelled)
    · exact .inl (.inl (.inr (.inr (.inl sums))))
    · exact .inr column
    · exact .inl (.inl (.inr (.inr (.inr scan))))
  · rintro (((head | values | sums | scan) | feature) | column)
    · exact .inl (.inl (.inl head))
    · exact .inl (.inl (.inr (.inl values)))
    · exact .inl (.inr (.inl sums))
    · exact .inr scan
    · exact .inl (.inl (.inr (.inr (.inl feature))))
    · exact .inl (.inr (.inr column))

/-! The guard. -/

theorem plain_of_isIdentifier (h : Settings.isIdentifier name) :
    ∀ c ∈ name.toList, c ≠ '\n' ∧ c ≠ '\\' := by
  intro c hc
  have word := isWordChar_of_isIdentifier h c hc
  constructor <;> (rintro rfl; simp [isWordChar] at word)

theorem tokens?_header (h : Settings.isIdentifier s.includeGuard) :
    tokens? (header s).toList =
      (tokens? (ended (including s.featuresHeader))).map (· ++ headerTokens) := by
  have named (before after : String)
      (plain : ∀ c ∈ before.toList ++ after.toList, c ≠ '\n' ∧ c ≠ '\\') :
      LexesLine ("#" ++ (before ++ s.includeGuard ++ after)) [] := by
    apply lexesLine_directive
    intro c hc
    simp only [String.toList_append, List.mem_append] at hc plain
    rcases hc with (hc | hc) | hc
    · exact plain c (.inl hc)
    · exact plain_of_isIdentifier h c hc
    · exact plain c (.inr hc)
  have front := (named "ifndef " "" (by simp)).append (named "define " " 1" (by simp))
  have declaration : LexesLine "int classify(objs_t &, size_t);" headerTokens := .of_run rfl
  have back := declaration.append (named "endif //" "" (by simp))
  rw [toList_header]
  simpa [headerLines, including, ended] using tokens?_including s.featuresHeader front back

theorem tokens?_source_eq (numeric : m.IsNumeric) (resolved : m.IsResolved) :
    tokens? (source m s).toList =
      (tokens? (ended (including s.headerFile))).map (· ++ sourceTokens m) := by
  have lines : sourceLines m s = including s.headerFile :: (sourceLines m s).tail := rfl
  have behind := tokens?_including s.headerFile (.nil _)
    (lexes_sourceLines_tail s numeric resolved)
  rw [toList_source, lines, List.flatMap_cons]
  exact behind

theorem tokens?_including_one_line (one_line : '\n' ∉ file.toList) :
    tokens? (ended (including file)) = some [] :=
  (lexesLine_include one_line).tokens?_eq

theorem word_mem_headerTokens_iff : word name ∈ headerTokens ↔ name ∈ headerWords := by
  simp [headerTokens, headerWords]

/-- An artifact that includes a file has the words of its own tokens, and those that the name of the
file brings along. -/
theorem word_mem_iff_of_including {text : List Char}
    (read : tokens? text = (tokens? (ended (including file))).map (· ++ ts))
    (h : tokens? text = some us) :
    ∃ brought, tokens? (ended (including file)) = some brought ∧
      (word name ∈ us ↔ word name ∈ ts ∨ word name ∈ brought) := by
  rw [read, Option.map_eq_some_iff] at h
  obtain ⟨brought, line, rfl⟩ := h
  exact ⟨brought, line, by rw [List.mem_append, or_comm]⟩

/-- An accepted guard rewrites the declaration in a header, or the code of a source, if and only if
it is one of the words there or one that the name of the included file brings along. A name without a
line end brings none. -/
theorem guard_is_word_iff (accepted : s.check = .ok ()) (numeric : m.IsNumeric)
    (resolved : m.IsResolved) :
    (∀ ts, tokens? (header s).toList = some ts →
      ∃ brought, tokens? (ended (including s.featuresHeader)) = some brought ∧
        (word s.includeGuard ∈ ts ↔
          s.includeGuard ∈ headerWords ∨ word s.includeGuard ∈ brought)) ∧
    (∀ ts, tokens? (source m s).toList = some ts →
      ∃ brought, tokens? (ended (including s.headerFile)) = some brought ∧
        (word s.includeGuard ∈ ts ↔
          s.includeGuard ∈ sourceWords m ∨ word s.includeGuard ∈ brought)) ∧
    ('\n' ∉ s.featuresHeader.toList → ∃ ts, tokens? (header s).toList = some ts ∧
      (word s.includeGuard ∈ ts ↔ s.includeGuard ∈ headerWords)) ∧
    ('\n' ∉ s.headerFile.toList → ∃ ts, tokens? (source m s).toList = some ts ∧
      (word s.includeGuard ∈ ts ↔ s.includeGuard ∈ sourceWords m)) := by
  have header := tokens?_header (Settings.isIdentifier_of_check accepted)
  have source := tokens?_source_eq (s := s) numeric resolved
  rw [← word_mem_headerTokens_iff, ← word_mem_sourceTokens_iff]
  refine ⟨fun ts read => ?_, fun ts read => ?_, fun one_line => ?_, fun one_line => ?_⟩
  · exact word_mem_iff_of_including header read
  · exact word_mem_iff_of_including source read
  · rw [tokens?_including_one_line one_line] at header
    exact ⟨headerTokens, header, Iff.rfl⟩
  · rw [tokens?_including_one_line one_line] at source
    exact ⟨sourceTokens m, source, Iff.rfl⟩

/-- One hypothesis, on a feature that is spelled by its variable. -/
def oneStump : Model where
  classes := ⟨["5", "-5"], by decide⟩
  hypotheses := [⟨"0.5", "2", ⟨.topPosition, "topPosition"⟩, ["+1", "-1"]⟩]
  hypotheses_ne_nil := by decide
  votes_length := by decide

theorem isNumeric_oneStump : oneStump.IsNumeric :=
  ⟨by decide, by decide, by decide, by decide⟩

/-- The guard is the name of a value that only some sources have. -/
def valueGuarded : Settings :=
  { Settings.default with includeGuard := "valuetopPosition" }

theorem guard_is_word_iff_valueGuarded :
    valueGuarded.check = .ok () ∧
      (∃ ts, tokens? (header valueGuarded).toList = some ts ∧ word "valuetopPosition" ∉ ts) ∧
      ∃ ts, tokens? (source oneStump valueGuarded).toList = some ts ∧
        word "valuetopPosition" ∈ ts := by
  have accepted : valueGuarded.check = .ok () := by decide +kernel
  obtain ⟨-, -, header, source⟩ := guard_is_word_iff accepted isNumeric_oneStump (by decide)
  obtain ⟨ts, read, absent⟩ := header (by decide)
  obtain ⟨us, read', present⟩ := source (by decide)
  exact ⟨accepted, ⟨ts, read, fun mem => absurd (absent.mp mem) (by decide)⟩, us, read',
    present.mpr (by decide)⟩

/-- The guard is the name of the function. -/
def classifyGuarded : Settings :=
  { Settings.default with includeGuard := "classify" }

/-- The name of the header goes on behind the line that includes it. -/
def longName : Settings :=
  { Settings.default with headerFile := "classifier.h\nCLASSIFIER_INCLUDED\n#" }

/-- A guard may be a word of both artifacts, and the name of the header can bring it into the
source. -/
theorem guard_captures_classify :
    classifyGuarded.check = .ok () ∧ longName.check = .ok () ∧ oneStump.IsNumeric ∧
      oneStump.IsResolved ∧
      (∃ ts, tokens? (header classifyGuarded).toList = some ts ∧
        word classifyGuarded.includeGuard ∈ ts) ∧
      (∃ ts, tokens? (source oneStump classifyGuarded).toList = some ts ∧
        word classifyGuarded.includeGuard ∈ ts) ∧
      ∃ ts, tokens? (source oneStump longName).toList = some ts ∧
        word longName.includeGuard ∈ ts := by
  have accepted : classifyGuarded.check = .ok () := by decide +kernel
  have resolved : oneStump.IsResolved := by decide
  have header := tokens?_header (Settings.isIdentifier_of_check accepted)
  have long := tokens?_source_eq (s := longName) isNumeric_oneStump resolved
  have brought : tokens? (ended (including longName.headerFile)) =
      some [word "CLASSIFIER_INCLUDED"] := by
    decide +kernel
  rw [tokens?_including_one_line (by decide)] at header
  rw [brought] at long
  exact ⟨accepted, by decide +kernel, isNumeric_oneStump, resolved,
    ⟨_, header, by decide⟩,
    ⟨_, tokens?_source isNumeric_oneStump resolved (by decide), by decide⟩,
    ⟨_, long, by decide⟩⟩

end StumpCompiler.Cpp
