import StumpCompiler.Proofs.Cpp.Decision
import StumpCompiler.Proofs.Cpp.SourceSyntax
import StumpCompiler.Proofs.Feature

/-! The generated function returns the class that the model decides for: the environment is followed
through the declarations, the sums and the scan. -/

namespace StumpCompiler.Cpp

variable {K : Type} {N : Numbers K} {values : Feature → K} {described : String → Option K}
  {m : Model}

/-- The descriptor of a type measures the value of its feature. -/
def measured (values : Feature → K) (type : String) : Option K :=
  (Feature.all.find? fun f => f.descriptorType == type).map values

theorem measured_descriptorType (f : Feature) : measured values f.descriptorType = some (values f) := by
  cases f <;> rfl

theorem number?_signedExpr {s : String} (h : isSigned s.toList) (env : Env K) :
    (signedExpr s).number? N described env = some (N.literal s) := by
  unfold isSigned at h
  split at h
  · next cs chars =>
    have meaning := N.literal_plus cs h
    rw [← chars, String.ofList_toList] at meaning
    rw [signedExpr, chars]
    simp [Expr.number?, meaning]
  · next cs chars =>
    have meaning := N.literal_minus cs h
    rw [← chars, String.ofList_toList] at meaning
    rw [signedExpr, chars]
    simp [Expr.number?, meaning]
  · simp_all [signedExpr, Expr.number?]

theorem number?_stumpExpr {h : Hypothesis} {vote : String} {env : Env K}
    (alpha : isSigned h.alpha.toList) (threshold : isSigned h.threshold.toList)
    (signed : isSigned vote.toList)
    (value : env.number? (valueIdentifier h.feature.column) = some (values h.feature.feature)) :
    (stumpExpr h vote).number? N described env = some (h.contribution N values vote) := by
  have test : (Expr.less (signedExpr h.threshold)
      (.name (valueIdentifier h.feature.column))).truth? N described env =
        some (N.less (N.literal h.threshold) (values h.feature.feature)) := by
    simp [Expr.truth?, Expr.number?, number?_signedExpr threshold, value]
  have voted : (signedExpr vote).number? N described env = some (N.literal vote) :=
    number?_signedExpr signed env
  have weight : (signedExpr h.alpha).number? N described env = some (N.literal h.alpha) :=
    number?_signedExpr alpha env
  rw [stumpExpr, choiceExpr, Expr.number?, weight, Expr.number?, test]
  cases less : N.less (N.literal h.threshold) (values h.feature.feature) <;>
    simp [Expr.number?, voted, Hypothesis.contribution, less]

/-! Declarations. -/

/-- Declarations of different new names, each of which means the same when others went before. -/
theorem runAll_declare {β : Type} {xs : List β} {f : β → Statement} {name : β → String}
    {value : β → Value K} {env : Env K}
    (each : ∀ x ∈ xs, ∀ inner : Env K, (∀ y v, env y = some v → inner y = some v) →
      (f x).run N described inner = inner.declare (name x) (value x))
    (nodup : (xs.map name).Nodup) (new : ∀ x ∈ xs, env (name x) = none) :
    ∃ after, Statement.runAll N described (xs.map f) env = some after ∧
      (∀ x ∈ xs, after (name x) = some (value x)) ∧ ∀ y ∉ xs.map name, after y = env y := by
  induction xs generalizing env with
  | nil => exact ⟨env, by simp, by simp, fun y _ => rfl⟩
  | cons x xs ih =>
    rw [List.map_cons, List.nodup_cons] at nodup
    have first : (f x).run N described env = some (env.set (name x) (value x)) := by
      rw [each x (by simp) env fun y v h => h]
      exact Env.declare_of_none _ (new x (by simp))
    have other (y : β) (hy : y ∈ xs) : name y ≠ name x := fun same =>
      nodup.1 (same ▸ List.mem_map_of_mem hy)
    have later (y : String) (v : Value K) (h : env y = some v) :
        (env.set (name x) (value x)) y = some v := by
      rw [Env.set_of_ne _ _ (by rintro rfl; simp [new x] at h), h]
    obtain ⟨after, run, declared, kept⟩ := @ih (env.set (name x) (value x))
      (fun y hy inner extends_next => each y (by simp [hy]) inner
        fun z v h => extends_next z v (later z v h))
      nodup.2
      (fun y hy => by rw [Env.set_of_ne _ _ (other y hy)]; exact new y (by simp [hy]))
    refine ⟨after, ?_, ?_, ?_⟩
    · rw [List.map_cons, Statement.runAll_cons, first]
      exact run
    · intro y hy
      rcases List.mem_cons.mp hy with rfl | hy
      · rw [kept _ nodup.1, Env.set_self]
      · exact declared y hy
    · intro y hy
      rw [List.map_cons, List.mem_cons, not_or] at hy
      rw [kept y hy.2, Env.set_of_ne _ _ hy.1]

/-- The environment in which the body starts. -/
def startEnv (N : Numbers K) (m : Model) : Env K :=
  ((Env.empty.set "classes" (.array (m.classes.ids.map N.literal))).set "objs" (.argument 0)).set
    "subject" (.argument 1)

@[simp] theorem startEnv_classes :
    startEnv N m "classes" = some (.array (m.classes.ids.map N.literal)) := by
  simp [startEnv, Env.set]

@[simp] theorem startEnv_objs : startEnv N m "objs" = some (.argument 0) := by
  simp [startEnv, Env.set]

@[simp] theorem startEnv_subject : startEnv N m "subject" = some (.argument 1) := by
  simp [startEnv, Env.set]

theorem startEnv_eq_none {x : String} (h : x ∉ ["classes", "objs", "subject"]) :
    startEnv N m x = none := by
  simp only [List.mem_cons, List.not_mem_nil, or_false, not_or] at h
  simp [startEnv, Env.set, Env.empty, h]

theorem mapM_signedExpr {ss : List String} (h : ∀ s ∈ ss, isSigned s.toList) (env : Env K) :
    (ss.map signedExpr).mapM (Expr.number? N described env) = some (ss.map N.literal) := by
  induction ss with
  | nil => rfl
  | cons s ss ih =>
    rw [List.map_cons, List.mapM_cons, number?_signedExpr (h s (by simp)),
      ih fun t ht => h t (by simp [ht])]
    rfl

theorem runAll_tables (numeric : m.IsNumeric) :
    Statement.runAll N described [classTable m] .empty =
      some (Env.empty.set "classes" (.array (m.classes.ids.map N.literal))) := by
  have elements : elements? N described .empty (toString m.classCount)
      (m.classes.ids.map signedExpr) = some (m.classes.ids.map N.literal) := by
    rw [elements?, place?_toString, mapM_signedExpr numeric.ids]
    simp [Model.classCount, ClassSet.size]
  rw [Statement.runAll_cons, classTable, Statement.run, elements]
  simp [Env.declare, Env.empty]

theorem bind_parameters (N : Numbers K) (m : Model) :
    Env.bind 0 ["objs", "subject"]
      (Env.empty.set "classes" (.array (m.classes.ids.map N.literal))) = some (startEnv N m) := by
  simp [Env.bind, Env.declare, Env.set, Env.empty, startEnv]

/-- The names that the sums and the scan declare. -/
def laterNames : List String := ["votes", "max", "best", "i"]

variable (N values m) in
/-- All that the votes and the scan need is declared, and nothing of their own. -/
structure Ready (env : Env K) : Prop where
  classes : env.array? "classes" = some (m.classes.ids.map N.literal)
  value : ∀ h ∈ m.hypotheses,
    env.number? (valueIdentifier h.feature.column) = some (values h.feature.feature)
  free : ∀ x ∈ laterNames, env x = none

variable (N values) in
theorem run_declareDescriptor (f : Feature) (env : Env K) :
    (declareDescriptor f).run N (measured values) env =
      env.declare f.variableName (.object f.descriptorType) := by
  simp [declareDescriptor, Statement.run, measured_descriptorType]

variable (N values) in
theorem run_declareValue (f : Feature) {env : Env K}
    (object : env f.variableName = some (.object f.descriptorType))
    (objs : env "objs" = some (.argument 0)) (subject : env "subject" = some (.argument 1)) :
    (declareValue f).run N (measured values) env =
      env.declare (valueIdentifier f.columnName) (.number (values f)) := by
  simp [declareValue, Statement.run, Expr.start?, Expr.number?, Env.argument?, Env.type?, object,
    objs, subject, measured_descriptorType]

variable (N described) in
theorem run_declareAlias (r : FeatureRef) {env : Env K}
    (value : env (valueIdentifier r.feature.columnName) = some (.number (values r.feature))) :
    (declareAlias r).run N described env =
      env.declare (valueIdentifier r.column) (.number (values r.feature)) := by
  simp [declareAlias, Statement.run, Expr.start?, Expr.number?, Env.number?, value]

theorem valueIdentifier_not_mem (column : String) : valueIdentifier column ∉ laterNames := by
  intro h
  simp only [laterNames, List.mem_cons, List.not_mem_nil, or_false] at h
  rcases h with h | h | h | h <;> exact valueIdentifier_ne column (by decide) h

theorem column_alias {r : FeatureRef} (resolved : m.IsResolved) (h : r ∈ m.aliases) :
    r.column = r.feature.variableName :=
  (Model.isResolved_of_mem_aliases resolved h).column_eq_variableName
    (Model.mem_of_mem_spellings h).2.1

variable (N values) in
/-- Behind the canonical values. -/
theorem runAll_values (m : Model) :
    ∃ env, Statement.runAll N (measured values)
        (Feature.all.map declareDescriptor ++ Feature.all.map declareValue) (startEnv N m) =
          some env ∧
      env "classes" = some (.array (m.classes.ids.map N.literal)) ∧
      (∀ f : Feature, env (valueIdentifier f.columnName) = some (.number (values f))) ∧
      (∀ f : Feature, env (valueIdentifier f.variableName) = none) ∧
      ∀ x ∈ laterNames, env x = none := by
  have all (f : Feature) : f ∈ Feature.all := by cases f <;> decide
  have start_free : ∀ f ∈ Feature.all, startEnv N m f.variableName = none := by
    intro f _
    exact startEnv_eq_none (by cases f <;> decide)
  obtain ⟨inner, run₁, objects, kept₁⟩ := runAll_declare
    (fun f _ scope _ => run_declareDescriptor N values f scope)
    (by decide) start_free
  have inner_free : ∀ f ∈ Feature.all, inner (valueIdentifier f.columnName) = none := by
    intro f _
    rw [kept₁ _ (by cases f <;> decide), startEnv_eq_none (by cases f <;> decide)]
  have objs : inner "objs" = some (.argument 0) := by
    rw [kept₁ _ (by decide), startEnv_objs]
  have subject : inner "subject" = some (.argument 1) := by
    rw [kept₁ _ (by decide), startEnv_subject]
  obtain ⟨env, run₂, numbers, kept₂⟩ := runAll_declare
    (fun f _ scope same => run_declareValue N values f
      (same _ _ (objects f (all f))) (same _ _ objs) (same _ _ subject))
    (by decide) inner_free
  have kept (x : String) (other : x ∉ Feature.all.map Feature.variableName)
      (differs : x ∉ Feature.all.map fun f => valueIdentifier f.columnName) :
      env x = startEnv N m x := by
    rw [kept₂ x differs, kept₁ x other]
  refine ⟨env, ?_, ?_, fun f => numbers f (all f), fun f => ?_, fun x hx => ?_⟩
  · rw [Statement.runAll_append, run₁]
    exact run₂
  · rw [kept _ (by decide) (by decide), startEnv_classes]
  · rw [kept _ (by cases f <;> decide) (by cases f <;> decide),
      startEnv_eq_none (by cases f <;> decide)]
  · simp only [laterNames, List.mem_cons, List.not_mem_nil, or_false] at hx
    rcases hx with rfl | rfl | rfl | rfl <;>
      rw [kept _ (by decide) (by decide), startEnv_eq_none (by decide)]

theorem valueIdentifier_alias_ne {r : FeatureRef} (resolved : m.IsResolved) (hr : r ∈ m.aliases)
    (f : Feature) : valueIdentifier r.column ≠ valueIdentifier f.columnName := by
  rw [column_alias resolved hr]
  cases r.feature <;> cases f <;> decide

/-- The column of a hypothesis is spelled as the feature's own column, or it is one of the
aliases. -/
theorem column_eq_or_mem_aliases {h : Hypothesis} (resolved : m.IsResolved)
    (hm : h ∈ m.hypotheses) :
    h.feature.column = h.feature.feature.columnName ∨ h.feature ∈ m.aliases := by
  cases canonical : h.feature.isCanonical with
  | true => exact .inl (by simpa [FeatureRef.isCanonical] using canonical)
  | false =>
    obtain ⟨r, hr, same⟩ := Model.exists_mem_spellings (List.mem_map_of_mem hm) canonical
      List.not_mem_nil
    have eq : r = h.feature :=
      (Model.isResolved_of_mem_aliases resolved hr).eq_of_column_eq (resolved h hm) same
    exact .inr (eq ▸ hr)

variable (N values) in
theorem runAll_prologue (resolved : m.IsResolved) :
    ∃ env, Statement.runAll N (measured values) (prologue m) (startEnv N m) = some env ∧
      Ready N values m env := by
  obtain ⟨inner, run, classes, numbers, unset, free⟩ := runAll_values N values m
  have nodup : (m.aliases.map fun r => valueIdentifier r.column).Nodup := by
    have columns : (m.aliases.map FeatureRef.column).Nodup := Model.nodup_spellings
    have names := columns.map fun a b h => valueIdentifier_inj h
    rwa [List.map_map] at names
  obtain ⟨env, run_aliases, declared, kept⟩ := runAll_declare
    (fun r _ scope same => run_declareAlias N (measured values) r
      (same _ _ (numbers r.feature)))
    nodup (fun r hr => by rw [column_alias resolved hr]; exact unset r.feature)
  have outside (x : String) (h : ∀ r ∈ m.aliases, valueIdentifier r.column ≠ x) :
      env x = inner x := by
    refine kept x fun mem => ?_
    obtain ⟨r, hr, same⟩ := List.mem_map.mp mem
    exact h r hr same
  refine ⟨env, ?_, ?_, ?_, ?_⟩
  · rw [prologue, Statement.runAll_append, run]
    exact run_aliases
  · rw [Env.array?, outside _ fun r _ => valueIdentifier_ne _ (by decide), classes]
  · intro h hm
    rcases column_eq_or_mem_aliases resolved hm with spelled | listed
    · rw [Env.number?, spelled,
        outside _ fun r hr => valueIdentifier_alias_ne resolved hr h.feature.feature, numbers]
    · rw [Env.number?, declared _ listed]
  · intro x hx
    rw [outside x fun r _ same => valueIdentifier_not_mem _ (same ▸ hx), free x hx]

/-! Sums. -/

/-- The sums when a hypothesis has voted. -/
def addScores (N : Numbers K) (values : Feature → K) (vs : List K) (h : Hypothesis) : List K :=
  vs.zipWith (fun sum vote => N.add sum (h.contribution N values vote)) h.votes

theorem getElem?_foldl_addScores {hs : List Hypothesis} {vs : List K} {slot : ℕ} {sum : K}
    (length : ∀ h ∈ hs, h.votes.length = vs.length) (at_slot : vs[slot]? = some sum) :
    (hs.foldl (addScores N values) vs)[slot]? = some (scoreFrom N values slot sum hs) := by
  induction hs generalizing vs sum with
  | nil => exact at_slot
  | cons h hs ih =>
    have first : (addScores N values vs h).length = vs.length := by
      simp [addScores, length h (by simp)]
    obtain ⟨inside, -⟩ := List.getElem?_eq_some_iff.mp at_slot
    have voted : slot < h.votes.length := by rwa [length h (by simp)]
    have next : (addScores N values vs h)[slot]? =
        some (N.add sum (h.contribution N values (h.votes.getD slot ""))) := by
      simp [addScores, List.getElem?_zipWith, at_slot, voted]
    exact ih (fun g hg => by rw [first, length g (by simp [hg])]) next

section

variable {env : Env K} (ready : Ready N values m env) (numeric : m.IsNumeric) {h : Hypothesis}
  (hm : h ∈ m.hypotheses)

include ready numeric hm

theorem run_addVote {vote : String} (voted : vote ∈ h.votes) {vs : List K} {slot : ℕ} {sum : K}
    (at_slot : vs[slot]? = some sum) :
    (addVote h slot vote).run N described (env.set "votes" (.array vs)) =
      some (env.set "votes"
        (.array (vs.set slot (N.add sum (h.contribution N values vote))))) := by
  have value : (env.set "votes" (.array vs)).number? (valueIdentifier h.feature.column) =
      some (values h.feature.feature) := by
    rw [Env.number?, Env.set_of_ne _ _ (valueIdentifier_ne _ (by decide)), ← ready.value h hm,
      Env.number?]
  have added : (stumpExpr h vote).number? N described (env.set "votes" (.array vs)) =
      some (h.contribution N values vote) :=
    number?_stumpExpr (numeric.alpha h hm) (numeric.threshold h hm)
      (numeric.votes h hm vote voted) value
  rw [addVote, Statement.run, added]
  simp [Env.update, Env.array?, Expr.index?, at_slot, Env.set_set]

/-- The sums of the slots behind `before` are still to be changed. -/
theorem runAll_votes (before after : List K) (votes : List String)
    (voted : ∀ vote ∈ votes, vote ∈ h.votes) (length : after.length = votes.length) :
    Statement.runAll N described
        ((votes.zipIdx before.length).map fun (vote, slot) => addVote h slot vote)
        (env.set "votes" (.array (before ++ after))) =
      some (env.set "votes" (.array (before ++
        after.zipWith (fun sum vote => N.add sum (h.contribution N values vote)) votes))) := by
  induction votes generalizing before after with
  | nil =>
    obtain rfl : after = [] := List.eq_nil_of_length_eq_zero length
    simp
  | cons vote votes ih =>
    obtain ⟨sum, after, rfl⟩ := List.exists_cons_of_length_eq_add_one length
    have at_slot : (before ++ sum :: after)[before.length]? = some sum := by simp
    have first : (addVote h before.length vote).run N described _ = _ :=
      run_addVote ready numeric hm (voted vote (by simp)) at_slot
    have rest := ih (before ++ [N.add sum (h.contribution N values vote)]) after
      (fun v hv => voted v (by simp [hv])) (by simpa using length)
    rw [List.zipIdx_cons, List.map_cons, Statement.runAll_cons, first]
    simpa using rest

end

theorem runAll_hypotheses {env : Env K} (ready : Ready N values m env) (numeric : m.IsNumeric)
    {hs : List Hypothesis} (sub : ∀ h ∈ hs, h ∈ m.hypotheses) {vs : List K}
    (length : vs.length = m.classCount) :
    Statement.runAll N described (hs.flatMap addVotes) (env.set "votes" (.array vs)) =
      some (env.set "votes" (.array (hs.foldl (addScores N values) vs))) := by
  induction hs generalizing vs with
  | nil => simp
  | cons h hs ih =>
    have votes : h.votes.length = vs.length := by
      rw [m.votes_length h (sub h (by simp)), length]
      rfl
    have first : Statement.runAll N described (addVotes h) (env.set "votes" (.array vs)) =
        some (env.set "votes" (.array (addScores N values vs h))) :=
      runAll_votes ready numeric (sub h (by simp)) [] vs h.votes (fun _ hv => hv) votes.symm
    rw [List.flatMap_cons, Statement.runAll_append, first]
    exact ih (fun g hg => sub g (by simp [hg])) (by simp [addScores, votes, length])

variable (described) in
/-- Behind all votes, every slot has its score. -/
theorem runAll_sums {env : Env K} (ready : Ready N values m env) (numeric : m.IsNumeric) :
    ∃ vs : List K, Statement.runAll N described (declareSums m :: m.hypotheses.flatMap addVotes)
        env = some (env.set "votes" (.array vs)) ∧
      ∀ slot < m.classCount, vs[slot]? = some (m.score N values slot) := by
  have pos : 0 < m.classCount := List.length_pos_of_ne_nil m.classes.ids_ne_nil
  have zeros : elements? N described env (toString m.classCount) [.literal "0"] =
      some (List.replicate m.classCount N.zero) := by
    obtain ⟨n, count⟩ := Nat.exists_eq_add_of_le' pos
    rw [elements?, place?_toString, count]
    simp [Expr.number?, N.literal_zero, List.replicate_succ]
  have declare : (declareSums m).run N described env =
      some (env.set "votes" (.array (List.replicate m.classCount N.zero))) := by
    rw [declareSums, Statement.run, zeros]
    simpa using Env.declare_of_none _ (ready.free "votes" (by decide))
  have length : ∀ h ∈ m.hypotheses,
      h.votes.length = (List.replicate m.classCount N.zero).length := by
    intro h hm
    rw [m.votes_length h hm, List.length_replicate]
    rfl
  refine ⟨m.hypotheses.foldl (addScores N values) (List.replicate m.classCount N.zero), ?_, ?_⟩
  · rw [Statement.runAll_cons, declare]
    exact runAll_hypotheses ready numeric (fun h hm => hm) (by simp)
  · intro slot hslot
    exact getElem?_foldl_addScores length (by simp [hslot])

/-! The scan. -/

/-- The scan has kept the slot `best`. -/
def scanEnv (env : Env K) (score : ℕ → K) (best : ℕ) : Env K :=
  (env.set "max" (.number (score best))).set "best" (.index best)

section

variable {env : Env K} {vs : List K} {score : ℕ → K}

/-- Keeping slot `i` in place of `best`. -/
theorem scanEnv_keep (best i : ℕ) :
    (((scanEnv env score best).set "i" (.index i)).set "max" (.number (score i))).set "best"
      (.index i) = (scanEnv env score i).set "i" (.index i) := by
  funext x
  by_cases hb : x = "best"
  · simp [scanEnv, Env.set, hb]
  · by_cases hm : x = "max" <;> simp [scanEnv, Env.set, hb, hm]

theorem run_keepLarger (votes : env "votes" = some (.array vs)) {best i : ℕ}
    (at_i : vs[i]? = some (score i)) :
    keepLarger.run N described ((scanEnv env score best).set "i" (.index i)) =
      some ((scanEnv env score (if N.less (score best) (score i) then i else best)).set "i"
        (.index i)) := by
  set outer := (scanEnv env score best).set "i" (.index i) with outer_eq
  have value : Expr.number? N described outer (.element "votes" (.name "i")) = some (score i) := by
    simp [Expr.number?, Env.array?, Expr.index?, Env.index?, outer_eq, scanEnv, Env.set, votes, at_i]
  have test : Expr.truth? N described outer
      (.less (.name "max") (.element "votes" (.name "i"))) =
        some (N.less (score best) (score i)) := by
    rw [Expr.truth?, value]
    simp [Expr.number?, Env.number?, outer_eq, scanEnv, Env.set]
  rw [keepLarger, Statement.run, test]
  cases N.less (score best) (score i) with
  | false => rfl
  | true =>
    have max : keepMax.run N described outer =
        some (outer.set "max" (.number (score i))) := by
      rw [keepMax, Statement.run, value]
      simp [Expr.indexName?, Env.index?, Env.update, Env.number?, outer_eq, scanEnv, Env.set]
    have best : keepBest.run N described (outer.set "max" (.number (score i))) =
        some ((scanEnv env score i).set "i" (.index i)) := by
      rw [keepBest, Statement.run, ← scanEnv_keep best i]
      simp [Expr.indexName?, Expr.index?, Env.index?, outer_eq, scanEnv, Env.set]
    have leave : outer.leave ((scanEnv env score i).set "i" (.index i)) =
        (scanEnv env score i).set "i" (.index i) := by
      refine Env.leave_eq_self fun x => ?_
      simp only [outer_eq, scanEnv, Env.set]
      split_ifs <;> simp
    simp [Statement.run, Statement.runAll_cons, max, best, leave]

variable (N described) in
/-- One round of the scan. -/
def scanRound (env : Env K) (i : ℕ) : Option (Env K) := do
  let env ← keepLarger.run N described (env.set "i" (.index i))
  if env.index? "i" = some i then return env else none

/-- After `k` rounds the scan has kept the best of the first `k` slots. -/
theorem foldlM_scanRound (votes : env "votes" = some (.array vs)) {k : ℕ}
    (at_slot : ∀ slot < k, vs[slot]? = some (score slot)) :
    (List.range' 0 k).foldlM (scanRound N described)
      ((scanEnv env score 0).set "i" (.index 0)) =
        some ((scanEnv env score (bestBelow N score k)).set "i" (.index (k - 1))) := by
  induction k with
  | zero => rfl
  | succ k ih =>
    rw [List.range'_1_concat, List.foldlM_append, ih fun slot h => at_slot slot (by omega)]
    simp [scanRound, Env.set_set, run_keepLarger votes (at_slot k (by omega)), Env.index?,
      bestBelow]

theorem run_scanLoop (votes : env "votes" = some (.array vs)) (new : env "i" = none)
    (at_slot : ∀ slot < m.classCount, vs[slot]? = some (score slot)) :
    (scanLoop m).run N described (scanEnv env score 0) =
      some (scanEnv env score (bestBelow N score m.classCount)) := by
  have zero : place? "0" = some 0 := place?_toString 0
  have declare : (scanEnv env score 0).declare "i" (.index 0) =
      some ((scanEnv env score 0).set "i" (.index 0)) :=
    Env.declare_of_none _ (by simp [scanEnv, Env.set, new])
  have leave (best last : ℕ) : (scanEnv env score 0).leave
      ((scanEnv env score best).set "i" (.index last)) = scanEnv env score best := by
    funext x
    by_cases hi : x = "i"
    · simp [Env.leave, scanEnv, Env.set, hi, new]
    · simp only [Env.leave, scanEnv, Env.set, hi, ↓reduceIte]
      split_ifs <;> simp_all
  rw [scanLoop, Statement.run, zero, place?_toString]
  change ((scanEnv env score 0).declare "i" (.index 0)).bind (fun inner =>
    ((List.range' 0 m.classCount).foldlM (scanRound N described) inner).bind fun inner =>
      some ((scanEnv env score 0).leave inner)) = _
  rw [declare, Option.bind_some, foldlM_scanRound votes at_slot, Option.bind_some, leave]

end

theorem runAll_scan {env : Env K} {vs : List K} {score : ℕ → K}
    (votes : env "votes" = some (.array vs)) (new : ∀ x ∈ ["max", "best", "i"], env x = none)
    (at_slot : ∀ slot < m.classCount, vs[slot]? = some (score slot)) :
    Statement.runAll N described [declareMax, declareBest, scanLoop m] env =
      some (scanEnv env score (bestBelow N score m.classCount)) := by
  have pos : 0 < m.classCount := List.length_pos_of_ne_nil m.classes.ids_ne_nil
  have zero : place? "0" = some 0 := place?_toString 0
  have first : Expr.number? N described env (.element "votes" (.literal "0")) =
      some (score 0) := by
    simp [Expr.number?, Env.array?, Expr.index?, zero, votes, at_slot 0 pos]
  have max : declareMax.run N described env = some (env.set "max" (.number (score 0))) := by
    rw [declareMax, Statement.run, Expr.start?, first]
    simpa using Env.declare_of_none _ (new "max" (by simp))
  have best : declareBest.run N described (env.set "max" (.number (score 0))) =
      some (scanEnv env score 0) := by
    rw [declareBest, Statement.run, Expr.start?]
    simp [Expr.index?, zero, Env.declare, Env.set_of_ne, new "best", scanEnv]
  rw [Statement.runAll_cons, max, Option.bind_some, Statement.runAll_cons, best, Option.bind_some,
    Statement.runAll_cons, run_scanLoop votes (new "i" (by simp)) at_slot, Option.bind_some,
    Statement.runAll_nil]

/-- The program of the source returns the class of the best slot. -/
theorem run_sourceProgram (N : Numbers K) (values : Feature → K) (numeric : m.IsNumeric)
    (resolved : m.IsResolved) :
    (sourceProgram m).run N (measured values) =
      (m.classes.ids[m.best N values]?).map N.literal := by
  obtain ⟨env, declared, ready⟩ := runAll_prologue N values resolved
  obtain ⟨vs, summed, at_slot⟩ := runAll_sums (measured values) ready numeric
  set inner := env.set "votes" (.array vs) with inner_eq
  have free : ∀ x ∈ ["max", "best", "i"], inner x = none := by
    intro x hx
    have ne : x ≠ "votes" := by
      rintro rfl
      exact absurd hx (by decide)
    rw [inner_eq, Env.set_of_ne _ _ ne, ready.free x (List.mem_cons_of_mem _ hx)]
  have scanned : Statement.runAll N (measured values) [declareMax, declareBest, scanLoop m]
      inner = _ := runAll_scan (Env.set_self env "votes" (.array vs)) free at_slot
  have classes : (scanEnv inner (m.score N values) (m.best N values)).array? "classes" =
      some (m.classes.ids.map N.literal) := by
    rw [← ready.classes]
    simp [Env.array?, scanEnv, Env.set, inner_eq]
  have best : (scanEnv inner (m.score N values) (m.best N values)).index? "best" =
      some (m.best N values) := by
    simp [Env.index?, scanEnv]
  have body : Statement.runAll N (measured values) (sourceProgram m).body (startEnv N m) =
      some (scanEnv inner (m.score N values) (m.best N values)) := by
    rw [sourceProgram, Statement.runAll_append, Statement.runAll_append, declared,
      Option.bind_some, summed, Option.bind_some, scanned, Model.best]
  have table : Statement.runAll N (measured values) (sourceProgram m).tables .empty = _ :=
    runAll_tables numeric
  have parameters : Env.bind 0 (sourceProgram m).parameters _ = _ := bind_parameters N m
  have result : (sourceProgram m).result = .element "classes" (.name "best") := rfl
  simp only [Program.run, table, parameters, body, Option.bind_eq_bind, Option.bind_some, result,
    Expr.number?, classes]
  simp [Expr.index?, best]

theorem best_lt (N : Numbers K) (values : Feature → K) (m : Model) :
    m.best N values < m.classes.ids.length :=
  bestBelow_lt (List.length_pos_of_ne_nil m.classes.ids_ne_nil)

/-- The integer that decimal digits with at most one sign stand for. -/
def decimal (s : String) : ℤ :=
  match s.toList with
  | '+' :: cs => Nat.ofDigitChars 10 cs 0
  | '-' :: cs => -Nat.ofDigitChars 10 cs 0
  | cs => Nat.ofDigitChars 10 cs 0

theorem decimal_of_isNumeral {cs : List Char} (h : isNumeral cs) :
    decimal (String.ofList cs) = Nat.ofDigitChars 10 cs 0 := by
  unfold decimal
  split
  · next digits => simp_all [isNumeral]
  · next digits => simp_all [isNumeral]
  · simp

def integers : Numbers ℤ where
  zero := 0
  add := (· + ·)
  mul := (· * ·)
  neg := (-·)
  less a b := a < b
  literal := decimal
  literal_zero := by decide
  literal_plus cs h := by
    rw [decimal_of_isNumeral h]
    simp [decimal]
  literal_minus cs h := by
    rw [decimal_of_isNumeral h]
    simp [decimal]

/-- Two classes and two spellings of one feature. -/
def twoClasses : Model where
  classes := ⟨["7", "-8"], by decide⟩
  hypotheses := [
    ⟨"2", "1", ⟨.aspectRatio, "aspectRatio"⟩, ["+1", "-1"]⟩,
    ⟨"3", "+4", ⟨.aspectRatio, "AspectRatio"⟩, ["1", "-1"]⟩]
  hypotheses_ne_nil := by decide
  votes_length := by decide

end StumpCompiler.Cpp
