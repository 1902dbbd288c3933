import StumpCompiler.Proofs.Cpp.SourceProgram
import StumpCompiler.Proofs.Cpp.SourceTokens

/-! The program that the tokens of the generated source are read as. Each rule of the grammar has a
lemma for the case that it is left, by the token behind, and one for the case that it goes on. -/

namespace StumpCompiler.Cpp

open Token (word number symbol)

variable {α : Type}

theorem expect_eq_none {t : Token} {ts : List Token} (h : ts.head? ≠ some t) :
    expect t ts = none := by
  cases ts with
  | nil => rfl
  | cons u ts => simpa [expect] using h

section

variable {operand : Parser α} {operator : Token} {combine : α → α → α} {ts rest : List Token}

theorem chain_stop (left : α) (h : ts.head? ≠ some operator) :
    chain operand operator combine left ts = some (left, ts) := by
  rw [chain, expect_eq_none h]

theorem chain_step (left : α) {right : α} (h : operand ts = some (right, rest))
    (shorter : rest.length ≤ ts.length) :
    chain operand operator combine left (operator :: ts) =
      chain operand operator combine (combine left right) rest := by
  have progress : rest.length < (operator :: ts).length := by simp; omega
  rw [chain, expect_cons_self]
  simp only [h, progress, ↓reduceIte]

end

section

variable {item : Parser α} {ts rest : List Token} {a : α}

theorem listed_last (h : item ts = some (a, rest)) (last : rest.head? ≠ some (symbol ",")) :
    listed item ts = some ([a], rest) := by
  rw [listed, h]
  simp only [expect_eq_none last]

theorem listed_step (h : item ts = some (a, symbol "," :: rest)) (shorter : rest.length < ts.length) :
    listed item ts = (listed item rest).map fun (as, ts) => (a :: as, ts) := by
  rw [listed, h]
  simp only [expect_cons_self, shorter, ↓reduceIte]

theorem sequence_stop (h : ts.head? = some (symbol "\x7d") ∨ ts.head? = some (word "return")) :
    sequence item ts = some ([], ts) := by
  rw [sequence]
  simp [h]

theorem sequence_step (h : item ts = some (a, rest)) (shorter : rest.length < ts.length)
    (inside : ts.head? ≠ some (symbol "\x7d") ∧ ts.head? ≠ some (word "return")) :
    sequence item ts = (sequence item rest).map fun (as, ts) => (a :: as, ts) := by
  rw [sequence, h]
  simp [inside.1, inside.2, shorter]

end

/-! Expressions. -/

section

variable {inner : Parser Expr} {e : Expr} {ts rest : List Token}

theorem unary_signed (s : String) (rest : List Token) :
    unary inner (signedTokens s ++ rest) = some (signedExpr s, rest) := by
  unfold signedTokens signTokens unsigned signedExpr
  split <;> simp_all [unary, primary]

theorem product_of_unary (h : unary inner ts = some (e, rest))
    (last : rest.head? ≠ some (symbol "*")) : product inner ts = some (e, rest) := by
  rw [product, h]
  exact chain_stop e last

theorem comparison_of_unary (h : unary inner ts = some (e, rest))
    (last : rest.head? ≠ some (symbol "*") ∧ rest.head? ≠ some (symbol "<")) :
    comparison inner ts = some (e, rest) := by
  rw [comparison, product_of_unary h last.1]
  exact chain_stop e last.2

theorem choice_of_comparison (h : comparison inner ts = some (e, rest))
    (last : rest.head? ≠ some (symbol "?")) : choice inner ts = some (e, rest) := by
  rw [choice, h]
  simp [expect_eq_none last]

/-- The token in front of which an expression ends. -/
def closes (t : Token) : Prop :=
  t ≠ symbol "*" ∧ t ≠ symbol "<" ∧ t ≠ symbol "?"

theorem choice_of_unary {t : Token} (h : unary inner ts = some (e, t :: rest))
    (last : closes t) : choice inner ts = some (e, t :: rest) := by
  obtain ⟨times, less, test⟩ := last
  exact choice_of_comparison (comparison_of_unary h (by simp [times, less])) (by simp [test])

theorem expressionAt_of_unary {t : Token} {depth : ℕ}
    (h : unary (expressionAt depth) ts = some (e, t :: rest)) (last : closes t) :
    expressionAt (depth + 1) ts = some (e, t :: rest) :=
  choice_of_unary h last

theorem expression_of_unary {t : Token}
    (h : ∀ depth, unary (expressionAt (depth + 1)) ts = some (e, t :: rest)) (last : closes t)
    (long : 2 ≤ ts.length) : expression ts = some (e, t :: rest) := by
  obtain ⟨depth, length⟩ := Nat.exists_eq_add_of_le' long
  rw [expression, length]
  exact expressionAt_of_unary (h depth) last

end

theorem expressionAt_signed (s : String) (depth : ℕ) {t : Token} (last : closes t)
    (rest : List Token) :
    expressionAt (depth + 1) (signedTokens s ++ t :: rest) = some (signedExpr s, t :: rest) :=
  expressionAt_of_unary (unary_signed s _) last

theorem expressionAt_choice (threshold column vote : String) (depth : ℕ) (rest : List Token) :
    expressionAt (depth + 3) (choiceTokens threshold column vote ++ symbol ")" :: rest) =
      some (choiceExpr threshold column vote, symbol ")" :: rest) := by
  have test : ∀ rest, comparison (expressionAt (depth + 2))
      (signedTokens threshold ++ symbol "<" :: word column :: symbol "?" :: rest) =
        some (.less (signedExpr threshold) (.name column), symbol "?" :: rest) := by
    intro rest
    have name : product (expressionAt (depth + 2)) (word column :: symbol "?" :: rest) =
        some (.name column, symbol "?" :: rest) :=
      product_of_unary (by simp [unary, primary]) (by simp)
    rw [comparison, product_of_unary (unary_signed threshold _) (by simp)]
    exact (chain_step _ name (by simp)).trans (chain_stop _ (by simp))
  have closing : closes (symbol ")") := by simp [closes]
  have colon : closes (symbol ":") := by simp [closes]
  have opposite : expressionAt (depth + 2)
      (symbol "-" :: symbol "(" :: (signedTokens vote ++ symbol ")" :: symbol ")" :: rest)) =
        some (.negative (signedExpr vote), symbol ")" :: rest) :=
    expressionAt_of_unary (by simp [unary, primary, expressionAt_signed vote depth closing])
      closing
  rw [expressionAt, choice]
  simp [choiceTokens, test, expressionAt_signed vote (depth + 1) colon, opposite, choiceExpr]

theorem expression_stump (h : Hypothesis) (vote : String) (rest : List Token) :
    expression (signedTokens h.alpha ++ symbol "*" :: symbol "(" ::
      (choiceTokens h.threshold (valueIdentifier h.feature.column) vote ++
        symbol ")" :: symbol ";" :: rest)) =
      some (stumpExpr h vote, symbol ";" :: rest) := by
  set choice := choiceTokens h.threshold (valueIdentifier h.feature.column) vote with choice_eq
  have long : 4 ≤ choice.length := by
    simp [choice_eq, choiceTokens]
    omega
  obtain ⟨depth, length⟩ := Nat.exists_eq_add_of_le' (Nat.le_trans long
    (by simp; omega : _ ≤ (signedTokens h.alpha ++ symbol "*" :: symbol "(" ::
      (choice ++ symbol ")" :: symbol ";" :: rest)).length))
  rw [expression, length]
  have factor : unary (expressionAt (depth + 3))
      (symbol "(" :: (choice ++ symbol ")" :: symbol ";" :: rest)) =
      some (choiceExpr h.threshold (valueIdentifier h.feature.column) vote,
        symbol ";" :: rest) := by
    simp [unary, primary, choice_eq, expressionAt_choice]
  refine choice_of_comparison ?_ (by simp)
  rw [comparison, product, unary_signed]
  simp only [Option.bind_eq_bind, Option.bind_some]
  rw [chain_step _ factor (by simp; omega), chain_stop _ (by simp)]
  exact chain_stop _ (by simp)

/-! Statements. -/

/-- The tokens are a statement, whatever follows, and do not end a sequence. -/
structure IsStatement (ts : List Token) (s : Statement) : Prop where
  inside : ts.head? ≠ some (symbol "\x7d") ∧ ts.head? ≠ some (word "return")
  read : ∀ depth rest, ts.length ≤ depth → statementAt depth (ts ++ rest) = some (s, rest)

namespace IsStatement

variable {ts rest : List Token} {s : Statement}

theorem ne_nil (h : IsStatement ts s) : ts ≠ [] := by
  rintro rfl
  have := h.read 0 [] (by simp)
  simp [statementAt] at this

theorem of_with (inside : ts.head? ≠ some (symbol "\x7d") ∧ ts.head? ≠ some (word "return"))
    (ne : ts ≠ []) (h : ∀ inner rest, statementWith inner (ts ++ rest) = some (s, rest)) :
    IsStatement ts s where
  inside := inside
  read depth rest long := by
    obtain ⟨depth, rfl⟩ := Nat.exists_eq_add_of_le' (Nat.le_trans (List.length_pos_of_ne_nil ne) long)
    exact h _ rest

theorem statement_append (h : IsStatement ts s) (rest : List Token) :
    statement (ts ++ rest) = some (s, rest) :=
  h.read _ rest (by simp)

theorem sequence_append {item : Parser Statement} (h : IsStatement ts s)
    (read : item (ts ++ rest) = some (s, rest)) :
    sequence item (ts ++ rest) =
      (sequence item rest).map fun (ss, us) => (s :: ss, us) := by
  obtain ⟨t, ts, rfl⟩ := List.exists_cons_of_ne_nil h.ne_nil
  exact sequence_step read (by simp) (by simpa using h.inside)

end IsStatement

/-- The tokens are these statements, one after the other. -/
def AreStatements (ts : List Token) (ss : List Statement) : Prop :=
  ∀ rest, sequence statement (ts ++ rest) =
    (sequence statement rest).map fun (us, vs) => (ss ++ us, vs)

namespace AreStatements

variable {ts us : List Token} {ss vs : List Statement}

theorem single {s : Statement} (h : IsStatement ts s) : AreStatements ts [s] :=
  fun rest => h.sequence_append (h.statement_append rest)

theorem append (first : AreStatements ts ss) (second : AreStatements us vs) :
    AreStatements (ts ++ us) (ss ++ vs) := by
  intro rest
  rw [List.append_assoc, first, second, Option.map_map]
  simp [Function.comp_def]

theorem flatMap {β : Type} {xs : List β} {text : β → List Token} {f : β → List Statement}
    (each : ∀ x ∈ xs, AreStatements (text x) (f x)) :
    AreStatements (xs.flatMap text) (xs.flatMap f) := by
  induction xs with
  | nil => intro rest; simp
  | cons x xs ih => exact (each x (by simp)).append (ih fun y hy => each y (by simp [hy]))

theorem map {β : Type} {xs : List β} {text : β → List Token} {f : β → Statement}
    (each : ∀ x ∈ xs, IsStatement (text x) (f x)) :
    AreStatements (xs.flatMap text) (xs.map f) := by
  rw [List.map_eq_flatMap]
  exact flatMap fun x hx => single (each x hx)

end AreStatements

theorem isStatement_descriptor (f : Feature) :
    IsStatement (descriptorTokens f) (declareDescriptor f) := by
  refine .of_with (by cases f <;> decide) (by simp [descriptorTokens]) fun inner rest => ?_
  have keyword : f.descriptorType ≠ "for" ∧ f.descriptorType ≠ "if" := by cases f <;> decide
  simp [descriptorTokens, statementWith, declaration, declareDescriptor, keyword]

theorem closes_semicolon : closes (symbol ";") := by
  simp [closes]

theorem isStatement_value (f : Feature) :
    IsStatement (valueTokens f) (declareValue f) := by
  refine .of_with (by simp [valueTokens]) (by simp [valueTokens]) fun inner rest => ?_
  have arguments (rest : List Token) : listed identifier
      (word "objs" :: symbol "," :: word "subject" :: symbol ")" :: rest) =
        some (["objs", "subject"], symbol ")" :: rest) := by
    have last : listed identifier (word "subject" :: symbol ")" :: rest) =
        some (["subject"], symbol ")" :: rest) := listed_last rfl (by simp)
    rw [listed_step rfl (by simp), last]
    rfl
  have call : expression (word f.variableName :: symbol "." :: word "describe" :: symbol "(" ::
      word "objs" :: symbol "," :: word "subject" :: symbol ")" :: symbol ";" :: rest) =
        some (.call f.variableName "describe" ["objs", "subject"], symbol ";" :: rest) :=
    expression_of_unary (fun depth => by simp [unary, primary, arguments]) closes_semicolon
      (by simp)
  simp [valueTokens, statementWith, declaration, call, declareValue]

theorem isStatement_alias (r : FeatureRef) :
    IsStatement (aliasTokens r) (declareAlias r) := by
  refine .of_with (by simp [aliasTokens]) (by simp [aliasTokens]) fun inner rest => ?_
  have name : expression (word (valueIdentifier r.feature.columnName) :: symbol ";" :: rest) =
      some (.name (valueIdentifier r.feature.columnName), symbol ";" :: rest) :=
    expression_of_unary (fun depth => by simp [unary, primary]) closes_semicolon (by simp)
  simp [aliasTokens, statementWith, declaration, name, declareAlias]

theorem isStatement_sums (m : Model) :
    IsStatement (sumsTokens m) (declareSums m) := by
  refine .of_with (by simp [sumsTokens]) (by simp [sumsTokens]) fun inner rest => ?_
  have zero : expression (number "0" :: symbol "\x7d" :: symbol ";" :: rest) =
      some (.literal "0", symbol "\x7d" :: symbol ";" :: rest) :=
    expression_of_unary (fun depth => by simp [unary, primary]) (by simp [closes]) (by simp)
  have start := listed_last zero (by simp)
  simp [sumsTokens, statementWith, declaration, start, declareSums]

/-- An element at a place that is a token. -/
theorem primary_element (array : String) {t : Token} {e : Expr}
    (place : ∀ depth rest, expressionAt (depth + 1) (t :: symbol "]" :: rest) =
      some (e, symbol "]" :: rest)) (depth : ℕ) (rest : List Token) :
    primary (expressionAt (depth + 1)) (word array :: symbol "[" :: t :: symbol "]" :: rest) =
      some (.element array e, rest) := by
  simp [primary, place]

theorem expressionAt_number (s : String) (depth : ℕ) (rest : List Token) :
    expressionAt (depth + 1) (number s :: symbol "]" :: rest) =
      some (.literal s, symbol "]" :: rest) :=
  expressionAt_of_unary (by simp [unary, primary]) (by simp [closes])

theorem expressionAt_word (x : String) (depth : ℕ) (rest : List Token) :
    expressionAt (depth + 1) (word x :: symbol "]" :: rest) =
      some (.name x, symbol "]" :: rest) :=
  expressionAt_of_unary (by simp [unary, primary]) (by simp [closes])

theorem isStatement_vote (h : Hypothesis) (slot : ℕ) (vote : String) :
    IsStatement (voteTokens h slot vote) (addVote h slot vote) := by
  refine .of_with (by simp [voteTokens]) (by simp [voteTokens]) fun inner rest => ?_
  have target (place : String) (rest : List Token) :
      primary expression (word "votes" :: symbol "[" :: number place :: symbol "]" :: rest) =
        some (.element "votes" (.literal place), rest) := by
    have inside : expression (number place :: symbol "]" :: rest) =
        some (.literal place, symbol "]" :: rest) :=
      expressionAt_number place _ rest
    simp [primary, inside]
  simp [voteTokens, statementWith, assignment, target, expression_stump, addVote]

theorem unary_votes (depth : ℕ) (rest : List Token) :
    unary (expressionAt (depth + 1)) (word "votes" :: symbol "[" :: word "i" :: symbol "]" ::
      rest) = some (.element "votes" (.name "i"), rest) := by
  simp [unary, primary_element "votes" (expressionAt_word "i")]

theorem isStatement_max : IsStatement maxTokens declareMax := by
  refine .of_with (by simp [maxTokens]) (by simp [maxTokens]) fun inner rest => ?_
  have first : expression (word "votes" :: symbol "[" :: number "0" :: symbol "]" ::
      symbol ";" :: rest) = some (.element "votes" (.literal "0"), symbol ";" :: rest) :=
    expression_of_unary
      (fun depth => by simp [unary, primary_element "votes" (expressionAt_number "0")])
      closes_semicolon (by simp)
  simp [maxTokens, statementWith, declaration, first, declareMax]

theorem isStatement_best : IsStatement bestTokens declareBest := by
  refine .of_with (by simp [bestTokens]) (by simp [bestTokens]) fun inner rest => ?_
  have zero : expression (number "0" :: symbol ";" :: rest) =
      some (.literal "0", symbol ";" :: rest) :=
    expression_of_unary (fun depth => by simp [unary, primary]) closes_semicolon (by simp)
  simp [bestTokens, statementWith, declaration, zero, declareBest]

theorem isStatement_keepMax : IsStatement keepMaxTokens keepMax := by
  refine .of_with (by simp [keepMaxTokens]) (by simp [keepMaxTokens]) fun inner rest => ?_
  have value : expression (word "votes" :: symbol "[" :: word "i" :: symbol "]" ::
      symbol ";" :: rest) = some (.element "votes" (.name "i"), symbol ";" :: rest) :=
    expression_of_unary (fun depth => unary_votes depth _) closes_semicolon (by simp)
  simp [keepMaxTokens, statementWith, assignment, primary, value, keepMax]

theorem isStatement_keepBest : IsStatement keepBestTokens keepBest := by
  refine .of_with (by simp [keepBestTokens]) (by simp [keepBestTokens]) fun inner rest => ?_
  have value : expression (word "i" :: symbol ";" :: rest) =
      some (.name "i", symbol ";" :: rest) :=
    expression_of_unary (fun depth => by simp [unary, primary]) closes_semicolon (by simp)
  simp [keepBestTokens, statementWith, assignment, primary, value, keepBest]

theorem sequence_keep (depth : ℕ) (rest : List Token) :
    sequence (statementAt (depth + 7)) (keepMaxTokens ++ (keepBestTokens ++ symbol "\x7d" :: rest)) =
      some ([keepMax, keepBest], symbol "\x7d" :: rest) := by
  have second := isStatement_keepBest.read (depth + 7) (symbol "\x7d" :: rest)
    (by simp [keepBestTokens])
  have first := isStatement_keepMax.read (depth + 7) (keepBestTokens ++ symbol "\x7d" :: rest)
    (by simp [keepMaxTokens])
  rw [isStatement_keepMax.sequence_append first, isStatement_keepBest.sequence_append second,
    sequence_stop (by simp)]
  rfl

theorem expression_test (rest : List Token) :
    expression (word "max" :: symbol "<" :: word "votes" :: symbol "[" :: word "i" ::
      symbol "]" :: symbol ")" :: rest) =
      some (.less (.name "max") (.element "votes" (.name "i")), symbol ")" :: rest) := by
  set ts := word "max" :: symbol "<" :: _ with ts_eq
  obtain ⟨depth, length⟩ : ∃ depth, ts.length = depth + 2 :=
    Nat.exists_eq_add_of_le' (by simp [ts_eq])
  have left : product (expressionAt (depth + 1)) ts = some (.name "max", ts.tail) :=
    product_of_unary (by simp [ts_eq, unary, primary]) (by simp [ts_eq])
  have right := product_of_unary (unary_votes depth (symbol ")" :: rest)) (by simp)
  rw [expression, length]
  refine choice_of_comparison ?_ (by simp)
  rw [comparison, left]
  exact (chain_step _ right (by simp)).trans (chain_stop _ (by simp))

theorem isStatement_loop (m : Model) : IsStatement (loopTokens m) (scanLoop m) where
  inside := by simp [loopTokens, loopHeadTokens]
  read depth rest long := by
    have length : 10 ≤ (loopTokens m).length := by simp [loopTokens, loopHeadTokens]
    obtain ⟨depth, rfl⟩ := Nat.exists_eq_add_of_le' (Nat.le_trans length long)
    change statementWith (statementWith (statementWith (statementAt (depth + 7)))) _ = _
    simp [loopTokens, loopHeadTokens, scanLoop, keepLarger, statementWith, loop, conditional, block,
      expression_test, sequence_keep]

/-! The program. -/

theorem listed_ids {ids : List String} (ne : ids ≠ []) (rest : List Token) :
    listed expression (idTokens ids ++ symbol "\x7d" :: symbol ";" :: rest) =
      some (ids.map signedExpr, symbol "\x7d" :: symbol ";" :: rest) := by
  have signed (id : String) (t : Token) (rest : List Token) (last : closes t) :
      expression (signedTokens id ++ t :: rest) = some (signedExpr id, t :: rest) := by
    refine expression_of_unary (fun depth => unary_signed id _) last ?_
    simp [signedTokens]
    omega
  induction ids with
  | nil => contradiction
  | cons id ids ih =>
    cases ids with
    | nil =>
      have only := signed id (symbol "\x7d") (symbol ";" :: rest) (by simp [closes])
      exact listed_last only (by simp)
    | cons next ids =>
      have first := signed id (symbol ",")
        (idTokens (next :: ids) ++ symbol "\x7d" :: symbol ";" :: rest) (by simp [closes])
      have shown : idTokens (id :: next :: ids) ++ symbol "\x7d" :: symbol ";" :: rest =
          signedTokens id ++ symbol "," ::
            (idTokens (next :: ids) ++ symbol "\x7d" :: symbol ";" :: rest) := by
        simp [idTokens]
      rw [shown, listed_step first (by simp; omega), ih (by simp)]
      rfl

theorem areStatements_prologue (m : Model) : AreStatements (prologueTokens m) (prologue m) :=
  ((AreStatements.map fun f _ => isStatement_descriptor f).append
    (.map fun f _ => isStatement_value f)).append (.map fun r _ => isStatement_alias r)

theorem areStatements_sums (m : Model) :
    AreStatements (votesTokens m) (declareSums m :: m.hypotheses.flatMap addVotes) :=
  (AreStatements.single (isStatement_sums m)).append
    (.flatMap fun h _ => .map fun x _ => isStatement_vote h x.2 x.1)

theorem sequence_scan (m : Model) :
    sequence statement (scanTokens m) =
      some ([declareMax, declareBest, scanLoop m], resultTokens) := by
  have statements := ((AreStatements.single isStatement_max).append
    (.single isStatement_best)).append (.single (isStatement_loop m))
  have stop : sequence statement resultTokens = some ([], resultTokens) :=
    sequence_stop (.inr rfl)
  rw [scanTokens, statements, stop]
  rfl

theorem declaration_table (m : Model) (rest : List Token) :
    declaration (tableTokens m ++ rest) = some (classTable m, rest) := by
  simp [tableTokens, declaration, listed_ids m.classes.ids_ne_nil, classTable]

theorem tables_source (m : Model) (rest : List Token) :
    tables (word "static" :: tableTokens m ++ word "int" :: rest) =
      some ([classTable m], word "int" :: rest) := by
  have none_left : tables (word "int" :: rest) = some ([], word "int" :: rest) := by
    rw [tables, expect_eq_none (by simp)]
  rw [List.cons_append, tables, expect_cons_self]
  simp [declaration_table, none_left]

theorem expression_result :
    expression [word "classes", symbol "[", word "best", symbol "]", symbol ";", symbol "\x7d"] =
      some (.element "classes" (.name "best"), [symbol ";", symbol "\x7d"]) :=
  expression_of_unary
    (fun depth => by simp [unary, primary_element "classes" (expressionAt_word "best")])
    closes_semicolon (by simp)

theorem listed_parameters (rest : List Token) :
    listed parameter (word "objs_t" :: symbol "&" :: word "objs" :: symbol "," ::
      word "size_t" :: word "subject" :: symbol ")" :: rest) =
        some (["objs", "subject"], symbol ")" :: rest) := by
  have last : listed parameter (word "size_t" :: word "subject" :: symbol ")" :: rest) =
      some (["subject"], symbol ")" :: rest) := listed_last rfl (by simp)
  rw [listed_step rfl (by simp), last]
  rfl

theorem program_source (m : Model) :
    program (sourceTokens m) = some (sourceProgram m, []) := by
  have body : sequence statement (prologueTokens m ++ (votesTokens m ++ scanTokens m)) =
      some ((sourceProgram m).body, resultTokens) := by
    rw [areStatements_prologue, areStatements_sums, sequence_scan]
    simp [sourceProgram]
  have start := tables_source m (signatureTokens.tail ++
    (prologueTokens m ++ (votesTokens m ++ scanTokens m)))
  have same : sourceTokens m = word "static" :: tableTokens m ++ word "int" ::
      (signatureTokens.tail ++ (prologueTokens m ++ (votesTokens m ++ scanTokens m))) := by
    simp [sourceTokens, headTokens, signatureTokens]
  rw [same, program, start]
  simp [signatureTokens, identifier, listed_parameters, body, resultTokens, expression_result]
  rfl

/-- The text of the source is read as its program. -/
theorem ofText?_source {m : Model} {s : Settings} (numeric : m.IsNumeric)
    (resolved : m.IsResolved) (one_line : '\n' ∉ s.headerFile.toList) :
    Program.ofText? (source m s) = some (sourceProgram m) := by
  rw [Program.ofText?, tokens?_source numeric resolved one_line, Option.bind_some,
    program_source]

end StumpCompiler.Cpp
