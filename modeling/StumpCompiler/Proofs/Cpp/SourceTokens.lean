import StumpCompiler.Proofs.Cpp.Lines
import StumpCompiler.Proofs.Cpp.Token
import StumpCompiler.Proofs.Feature

/-! The tokens of the generated source, line by line, for models with numerals for numbers. -/

namespace StumpCompiler

/-- All identifiers and numbers of a model are numerals with at most one sign. -/
structure Model.IsNumeric (m : Model) : Prop where
  ids : ∀ id ∈ m.classes.ids, Cpp.isSigned id.toList
  alpha : ∀ h ∈ m.hypotheses, Cpp.isSigned h.alpha.toList
  threshold : ∀ h ∈ m.hypotheses, Cpp.isSigned h.threshold.toList
  votes : ∀ h ∈ m.hypotheses, ∀ v ∈ h.votes, Cpp.isSigned v.toList

namespace Cpp

open Token (word number symbol)

def signedTokens (s : String) : List Token :=
  signTokens s ++ [number (unsigned s)]

def idTokens : List String → List Token
  | [] => []
  | [id] => signedTokens id
  | id :: ids => signedTokens id ++ symbol "," :: idTokens ids

def descriptorTokens (f : Feature) : List Token :=
  [word f.descriptorType, word f.variableName, symbol ";"]

def valueTokens (f : Feature) : List Token :=
  [word "double", word (valueIdentifier f.columnName), symbol "=", word f.variableName,
    symbol ".", word "describe", symbol "(", word "objs", symbol ",", word "subject",
    symbol ")", symbol ";"]

def aliasTokens (r : FeatureRef) : List Token :=
  [word "double", word (valueIdentifier r.column), symbol "=",
    word (valueIdentifier r.feature.columnName), symbol ";"]

/-- The vote if the value in `column` is above the threshold, else its opposite. -/
def choiceTokens (threshold column vote : String) : List Token :=
  signedTokens threshold ++ [symbol "<", word column, symbol "?"] ++ signedTokens vote ++
    [symbol ":", symbol "-", symbol "("] ++ signedTokens vote ++ [symbol ")"]

def voteTokens (h : Hypothesis) (slot : ℕ) (vote : String) : List Token :=
  [word "votes", symbol "[", number (toString slot), symbol "]", symbol "+="] ++
    signedTokens h.alpha ++ [symbol "*", symbol "("] ++
    choiceTokens h.threshold (valueIdentifier h.feature.column) vote ++ [symbol ")", symbol ";"]

def tableTokens (m : Model) : List Token :=
  [word "int", word "classes", symbol "[", number (toString m.classCount), symbol "]",
    symbol "=", symbol "\x7b"] ++ idTokens m.classes.ids ++ [symbol "\x7d", symbol ";"]

def signatureTokens : List Token :=
  [word "int", word "classify", symbol "(", word "objs_t", symbol "&", word "objs", symbol ",",
    word "size_t", word "subject", symbol ")", symbol "\x7b"]

def headTokens (m : Model) : List Token :=
  word "static" :: tableTokens m ++ signatureTokens

def prologueTokens (m : Model) : List Token :=
  Feature.all.flatMap descriptorTokens ++ Feature.all.flatMap valueTokens ++
    m.aliases.flatMap aliasTokens

def sumsTokens (m : Model) : List Token :=
  [word "double", word "votes", symbol "[", number (toString m.classCount), symbol "]",
    symbol "=", symbol "\x7b", number "0", symbol "\x7d", symbol ";"]

def votesTokens (m : Model) : List Token :=
  sumsTokens m ++ m.hypotheses.flatMap fun h =>
    h.votes.zipIdx.flatMap fun (vote, slot) => voteTokens h slot vote

def maxTokens : List Token :=
  [word "double", word "max", symbol "=", word "votes", symbol "[", number "0", symbol "]",
    symbol ";"]

def bestTokens : List Token :=
  [word "size_t", word "best", symbol "=", number "0", symbol ";"]

def keepMaxTokens : List Token :=
  [word "max", symbol "=", word "votes", symbol "[", word "i", symbol "]", symbol ";"]

def keepBestTokens : List Token :=
  [word "best", symbol "=", word "i", symbol ";"]

def loopHeadTokens (m : Model) : List Token :=
  [word "for", symbol "(", word "size_t", word "i", symbol "=", number "0", symbol ";",
    word "i", symbol "<", number (toString m.classCount), symbol ";", symbol "++", word "i",
    symbol ")"]

def loopTokens (m : Model) : List Token :=
  loopHeadTokens m ++
    [word "if", symbol "(", word "max", symbol "<", word "votes", symbol "[", word "i",
      symbol "]", symbol ")", symbol "\x7b"] ++ keepMaxTokens ++ keepBestTokens ++ [symbol "\x7d"]

/-- The tokens behind the last statement. -/
def resultTokens : List Token :=
  [word "return", word "classes", symbol "[", word "best", symbol "]", symbol ";",
    symbol "\x7d"]

def scanTokens (m : Model) : List Token :=
  maxTokens ++ bestTokens ++ loopTokens m ++ resultTokens

def sourceTokens (m : Model) : List Token :=
  headTokens m ++ prologueTokens m ++ votesTokens m ++ scanTokens m

/-- A line gives these tokens. -/
def LexesLine (line : String) (ts : List Token) : Prop :=
  Lexes (.gap true) (ended line) ts (.gap true)

theorem lexes_ids {ids : List String} (ne : ids ≠ []) (h : ∀ id ∈ ids, isSigned id.toList)
    (fresh : Bool) : ∃ ts u e, idTokens ids = ts ++ [number u] ∧
      Lexes (.gap fresh) (", ".intercalate ids).toList ts (.number u.toList e) := by
  induction ids generalizing fresh with
  | nil => contradiction
  | cons id ids ih =>
    obtain ⟨e, first⟩ := lexes_signed (h id (by simp)) fresh
    cases ids with
    | nil => exact ⟨signTokens id, unsigned id, e, rfl, by simpa using first⟩
    | cons next ids =>
      obtain ⟨ts, u, e', eq, rest⟩ := ih (by simp) (fun x hx => h x (by simp [hx])) false
      have comma : Lexes (.number (unsigned id).toList e) ", ".toList
          [number (unsigned id), symbol ","] (.gap false) :=
        .behind_number (.of_run rfl) (by decide)
      refine ⟨signedTokens id ++ symbol "," :: ts, u, e', by simp [idTokens, eq], ?_⟩
      simpa [signedTokens] using (first.append comma).append rest

theorem lexesLine_include {file : String} (h : '\n' ∉ file.toList) :
    LexesLine ("#include \"" ++ file ++ "\"") [] := by
  obtain ⟨e, middle⟩ := lexes_directive h false
  have first : Lexes (.gap true) "#include \"".toList [] (.directive false) :=
    .of_run rfl
  have last : Lexes (.directive e) "\"\n".toList [] (.gap true) := by
    cases e <;> exact .of_run rfl
  simpa [LexesLine, ended] using (first.append middle).append last

theorem lexesLine_classes {m : Model} (numeric : m.IsNumeric) :
    LexesLine ("static int classes[" ++ toString m.classCount ++ "] = \x7b" ++
      ", ".intercalate m.classes.ids ++ "\x7d;") (word "static" :: tableTokens m) := by
  obtain ⟨e, count⟩ := lexes_numeral (isNumeral_toString m.classCount) false
  obtain ⟨ts, u, e', eq, ids⟩ := lexes_ids m.classes.ids_ne_nil numeric.ids false
  have first : Lexes (.gap true) "static int classes[".toList
      [word "static", word "int", word "classes", symbol "["] (.gap false) :=
    .of_run rfl
  have between : Lexes (.number (toString m.classCount).toList e) "] = \x7b".toList
      [number (toString m.classCount), symbol "]", symbol "=", symbol "\x7b"] (.gap false) :=
    .behind_number (.of_run rfl) (by decide)
  have last : Lexes (.number u.toList e') "\x7d;\n".toList
      [number u, symbol "\x7d", symbol ";"] (.gap true) :=
    .behind_number (.of_run rfl) (by decide)
  have all := (((first.append count).append between).append ids).append last
  simpa [LexesLine, ended, tableTokens, eq] using all

theorem lexesLine_descriptor (f : Feature) : LexesLine (descriptorLine f) (descriptorTokens f) := by
  cases f <;> exact .of_run rfl

set_option maxRecDepth 2000 in
theorem lexesLine_value (f : Feature) : LexesLine (valueLine f) (valueTokens f) := by
  cases f <;> exact .of_run rfl

theorem lexesLine_alias {r : FeatureRef} (h : r.IsResolved) :
    LexesLine (aliasLine r) (aliasTokens r) := by
  obtain ⟨f, column⟩ := r
  cases f <;> rcases FeatureRef.isResolved_iff.mp h with spelled | spelled <;>
    (simp only at spelled; subst spelled; exact .of_run rfl)

/-- The characters of a spelling belong to a word. -/
theorem isWordChar_of_isResolved {r : FeatureRef} (h : r.IsResolved) :
    ∀ c ∈ r.column.toList, isWordChar c := by
  intro c hc
  simp [isWordChar, Char.isAlphanum, h.isAlpha_of_mem_column c hc]

theorem lexesLine_vote {h : Hypothesis} {vote : String} (slot : ℕ)
    (resolved : h.feature.IsResolved) (alpha : isSigned h.alpha.toList)
    (threshold : isSigned h.threshold.toList) (signed : isSigned vote.toList) :
    LexesLine (voteStatement h slot vote) (voteTokens h slot vote) := by
  obtain ⟨e₀, slotText⟩ := lexes_numeral (isNumeral_toString slot) false
  obtain ⟨e₁, alphaText⟩ := lexes_signed alpha false
  obtain ⟨e₂, thresholdText⟩ := lexes_signed threshold false
  obtain ⟨e₃, voteText⟩ := lexes_signed signed false
  have columnText := lexes_word "value".toList (isWordChar_of_isResolved resolved)
  rw [← String.toList_append] at columnText
  have start : Lexes (.gap true) "  votes[".toList [word "votes", symbol "["] (.gap false) :=
    .of_run rfl
  have add : Lexes (.number (toString slot).toList e₀) "] += ".toList
      [number (toString slot), symbol "]", symbol "+="] (.gap false) :=
    .behind_number (.of_run rfl) (by decide)
  have times : Lexes (.number (unsigned h.alpha).toList e₁) " * (".toList
      [number (unsigned h.alpha), symbol "*", symbol "("] (.gap false) :=
    .behind_number (.of_run rfl) (by decide)
  have below : Lexes (.number (unsigned h.threshold).toList e₂) " < value".toList
      [number (unsigned h.threshold), symbol "<"] (.word "value".toList) :=
    .behind_number (.of_run rfl) (by decide)
  have test : Lexes (.word ("value" ++ h.feature.column).toList) " ? ".toList
      [word ("value" ++ h.feature.column), symbol "?"] (.gap false) :=
    .behind_word (.of_run rfl) (by decide)
  have otherwise : Lexes (.number (unsigned vote).toList e₃) " : -(".toList
      [number (unsigned vote), symbol ":", symbol "-", symbol "("] (.gap false) :=
    .behind_number (.of_run rfl) (by decide)
  have finish : Lexes (.number (unsigned vote).toList e₃) "));\n".toList
      [number (unsigned vote), symbol ")", symbol ")", symbol ";"] (.gap true) :=
    .behind_number (.of_run rfl) (by decide)
  have left := (((start.append slotText).append add).append alphaText).append times
  have middle := ((thresholdText.append below).append columnText).append test
  have right := ((voteText.append otherwise).append voteText).append finish
  have all := (left.append middle).append right
  unfold LexesLine ended voteStatement voteTokens choiceTokens valueIdentifier
  simpa [signedTokens] using all

theorem lexesLine_sums (m : Model) :
    LexesLine ("  double votes[" ++ toString m.classCount ++ "] = \x7b0\x7d;")
      (sumsTokens m) := by
  obtain ⟨e, count⟩ := lexes_numeral (isNumeral_toString m.classCount) false
  have first : Lexes (.gap true) "  double votes[".toList
      [word "double", word "votes", symbol "["] (.gap false) := .of_run rfl
  have last : Lexes (.number (toString m.classCount).toList e) "] = \x7b0\x7d;\n".toList
      [number (toString m.classCount), symbol "]", symbol "=", symbol "\x7b", number "0",
        symbol "\x7d", symbol ";"] (.gap true) :=
    .behind_number (.of_run rfl) (by decide)
  simpa [LexesLine, ended, sumsTokens] using (first.append count).append last

theorem lexesLine_loop (m : Model) :
    LexesLine ("  for (size_t i = 0; i < " ++ toString m.classCount ++ "; ++i)")
      (loopHeadTokens m) := by
  obtain ⟨e, count⟩ := lexes_numeral (isNumeral_toString m.classCount) false
  have first : Lexes (.gap true) "  for (size_t i = 0; i < ".toList
      [word "for", symbol "(", word "size_t", word "i", symbol "=", number "0", symbol ";",
        word "i", symbol "<"] (.gap false) := .of_run rfl
  have last : Lexes (.number (toString m.classCount).toList e) "; ++i)\n".toList
      [number (toString m.classCount), symbol ";", symbol "++", word "i", symbol ")"]
      (.gap true) := .behind_number (.of_run rfl) (by decide)
  simpa [LexesLine, ended, loopHeadTokens] using (first.append count).append last

/-- The table of classes and the head of the function, behind the line that includes the header. -/
theorem lexes_head {m : Model} (s : Settings) (numeric : m.IsNumeric) :
    Lexes (.gap true) ((headLines m s).tail.flatMap ended) (headTokens m) (.gap true) := by
  have signature : Lexes (.gap true)
      (["int", "classify(objs_t &objs, size_t subject)", "\x7b"].flatMap ended)
      signatureTokens (.gap true) := .of_run rfl
  have all := (lexesLine_classes numeric).append signature
  unfold headLines headTokens
  simpa only [List.tail_cons, List.flatMap_cons] using all

theorem lexes_prologue {m : Model} (resolved : m.IsResolved) :
    Lexes (.gap true) ((prologueLines m).flatMap ended) (prologueTokens m) (.gap true) := by
  have descriptors := Lexes.flatMap fun f (_ : f ∈ Feature.all) => lexesLine_descriptor f
  have values := Lexes.flatMap fun f (_ : f ∈ Feature.all) => lexesLine_value f
  have aliases := Lexes.flatMap fun r (h : r ∈ m.aliases) =>
    lexesLine_alias (Model.isResolved_of_mem_aliases resolved h)
  have all := (descriptors.append values).append aliases
  unfold prologueLines prologueTokens
  simpa only [List.flatMap_append, List.flatMap_map] using all

theorem lexes_votes {m : Model} (numeric : m.IsNumeric) (resolved : m.IsResolved) :
    Lexes (.gap true) ((voteLines m).flatMap ended) (votesTokens m) (.gap true) := by
  have blank : LexesLine "" [] := .of_run rfl
  have statements := Lexes.flatMap fun h (hm : h ∈ m.hypotheses) =>
    Lexes.flatMap fun (x : String × ℕ) (hx : x ∈ h.votes.zipIdx) =>
      lexesLine_vote x.2 (resolved h hm) (numeric.alpha h hm) (numeric.threshold h hm)
        (numeric.votes h hm x.1 (List.fst_mem_of_mem_zipIdx hx))
  have all := ((lexesLine_sums m).append blank).append statements
  unfold voteLines votesTokens hypothesisLines
  simpa only [List.flatMap_append, List.flatMap_cons, List.flatMap_nil, List.flatMap_assoc,
    List.flatMap_map, List.append_nil] using all

set_option maxRecDepth 4000 in
theorem lexes_scan (m : Model) :
    Lexes (.gap true) ((scanLines m).flatMap ended) (scanTokens m) (.gap true) := by
  have first : Lexes (.gap true)
      (["  double max = votes[0];", "  size_t best = 0;"].flatMap ended)
      (maxTokens ++ bestTokens) (.gap true) := .of_run rfl
  have last : Lexes (.gap true)
      (["    if (max < votes[i]) \x7b", "      max = votes[i];", "      best = i;", "    \x7d",
        "  return classes[best];", "\x7d"].flatMap ended)
      ([word "if", symbol "(", word "max", symbol "<", word "votes", symbol "[", word "i",
        symbol "]", symbol ")", symbol "\x7b"] ++ keepMaxTokens ++ keepBestTokens ++
        [symbol "\x7d"] ++ resultTokens)
      (.gap true) := .of_run rfl
  have all := (first.append (lexesLine_loop m)).append last
  unfold scanLines scanTokens loopTokens
  simpa only [List.flatMap_cons, List.flatMap_nil, List.append_nil, List.append_assoc,
    List.cons_append, List.nil_append] using all

theorem lexes_sourceLines_tail {m : Model} (s : Settings) (numeric : m.IsNumeric)
    (resolved : m.IsResolved) :
    Lexes (.gap true) ((sourceLines m s).tail.flatMap ended) (sourceTokens m) (.gap true) := by
  have all := (((lexes_head s numeric).append (lexes_prologue resolved)).append
    (lexes_votes numeric resolved)).append (lexes_scan m)
  have tail : (sourceLines m s).tail =
      (headLines m s).tail ++ prologueLines m ++ voteLines m ++ scanLines m := rfl
  rw [tail]
  simp only [List.flatMap_append]
  exact all

theorem tokens?_source {m : Model} {s : Settings} (numeric : m.IsNumeric)
    (resolved : m.IsResolved) (one_line : '\n' ∉ s.headerFile.toList) :
    tokens? (source m s).toList = some (sourceTokens m) := by
  have all := (lexesLine_include one_line).append (lexes_sourceLines_tail s numeric resolved)
  rw [toList_source]
  exact all.tokens?_eq

end Cpp

end StumpCompiler
