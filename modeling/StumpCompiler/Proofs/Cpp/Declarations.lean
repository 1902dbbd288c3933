import StumpCompiler.Proofs.Cpp.Statements

/-! The values of the features are declared once each, in front of all votes, and a spelling that a
vote uses leads back to the descriptor of its feature. -/

namespace StumpCompiler.Cpp

/-- The declaration of a value with the expression behind its equals sign. -/
structure ValueDeclaration where
  name : String
  initialiser : String
  deriving DecidableEq

namespace ValueDeclaration

/-- Reads a line `double value… = …;`, with or without white space in front of it. -/
def read? (line : List Char) : Option ValueDeclaration :=
  if "double value".toList.isPrefixOf (codeOf line) then
    let (name, rest) := ((codeOf line).drop "double ".length).span (· ≠ ' ')
    if " = ".toList.isPrefixOf rest && rest.getLast? = some ';' then
      some ⟨String.ofList name, String.ofList (rest.drop " = ".length).dropLast⟩
    else none
  else none

/-- Where the initialisers lead from a name. The last declaration stands first; an initialiser can
use what is declared in front of it. -/
def origin : List ValueDeclaration → String → String
  | [], name => name
  | d :: ds, name => if d.name = name then origin ds d.initialiser else origin ds name

/-- The value of a feature under its column name. -/
def ofFeature (f : Feature) : ValueDeclaration :=
  ⟨valueIdentifier f.columnName, f.variableName ++ ".describe(objs, subject)"⟩

/-- The value of a feature under another spelling. -/
def ofAlias (r : FeatureRef) : ValueDeclaration :=
  ⟨valueIdentifier r.column, valueIdentifier r.feature.columnName⟩

end ValueDeclaration

open ValueDeclaration

/-- The declarations of values among some lines. -/
def declared (lines : List (List Char)) : List ValueDeclaration :=
  lines.filterMap read?

/-- What the function declares or is given besides the values, and its own name. -/
def otherNames : List String :=
  Feature.all.map Feature.variableName ++
    ["objs", "subject", "votes", "max", "best", "i", "classes", "classify"]

/-- The spellings in a model that are no column names, in the order in which they first appear. -/
def otherSpellings (m : Model) : List String :=
  ((m.hypotheses.map fun h => h.feature.column).filter
    (· ∉ Feature.all.map Feature.columnName)).eraseDups

variable {m : Model} {s : Settings} {r : FeatureRef}

/-! Which lines are declarations of values. -/

theorem read?_declaration {column : String} (initialiser : String) (word : ' ' ∉ column.toList) :
    read? ("  double " ++ valueIdentifier column ++ " = " ++ initialiser ++ ";").toList =
      some ⟨valueIdentifier column, initialiser⟩ := by
  generalize assignment : " = ".toList ++ (initialiser.toList ++ [';']) = rest
  have code : codeOf ("  double " ++ valueIdentifier column ++ " = " ++ initialiser ++ ";").toList =
      "double ".toList ++ ((valueIdentifier column).toList ++ rest) := by
    simp only [← assignment, String.toList_append, List.append_assoc]
    simp [codeOf, Encoding.isBlank]
  have starts : "double value".toList.isPrefixOf
      ("double ".toList ++ ((valueIdentifier column).toList ++ rest)) := by
    simp [valueIdentifier]
  have name : ∀ c ∈ (valueIdentifier column).toList, decide (c ≠ ' ') = true := by
    intro c mem
    refine decide_eq_true (ne_of_mem_of_not_mem mem ?_)
    simp [valueIdentifier, word]
  have cut : ((valueIdentifier column).toList ++ rest).span (· ≠ ' ') =
      ((valueIdentifier column).toList, rest) := by
    rw [List.span_eq_takeWhile_dropWhile, List.takeWhile_append_of_pos name,
      List.dropWhile_append_of_pos name, ← assignment]
    simp
  have ends : " = ".toList.isPrefixOf rest && rest.getLast? = some ';' := by
    rw [← assignment, ← List.append_assoc, List.getLast?_concat]
    simp
  have dropped : ("double ".toList ++ ((valueIdentifier column).toList ++ rest)).drop
      "double ".length = (valueIdentifier column).toList ++ rest := rfl
  have value : (rest.drop " = ".length).dropLast = initialiser.toList := by
    rw [← assignment]
    exact List.dropLast_concat
  rw [read?, code, if_pos starts, dropped]
  simp only [cut, ends, value, ↓reduceIte, String.ofList_toList]

theorem read?_head (m : Model) (s : Settings) :
    ∀ l ∈ headLines m s, ValueDeclaration.read? l.toList = none := by
  simp only [headLines, List.forall_mem_cons, String.toList_append]
  exact ⟨rfl, rfl, rfl, rfl, rfl, List.forall_mem_nil _⟩

theorem read?_descriptors :
    ∀ l ∈ Feature.all.map descriptorLine, ValueDeclaration.read? l.toList = none := by
  decide

theorem read?_votes (m : Model) : ∀ l ∈ voteLines m, ValueDeclaration.read? l.toList = none := by
  intro l hl
  rcases List.mem_append.mp hl with sums | votes
  · have all : ∀ l ∈ ["  double votes[" ++ toString m.classCount ++ "] = \x7b0\x7d;", ""],
        ValueDeclaration.read? l.toList = none := by
      simp only [List.forall_mem_cons, String.toList_append]
      exact ⟨rfl, rfl, List.forall_mem_nil _⟩
    exact all l sums
  · obtain ⟨h, -, hl⟩ := List.mem_flatMap.mp votes
    obtain ⟨⟨vote, slot⟩, -, rfl⟩ := List.mem_map.mp hl
    unfold voteStatement
    simp only [String.toList_append]
    rfl

theorem read?_scan (m : Model) : ∀ l ∈ scanLines m, ValueDeclaration.read? l.toList = none := by
  simp only [scanLines, List.forall_mem_cons, String.toList_append]
  exact ⟨rfl, rfl, rfl, rfl, rfl, rfl, rfl, rfl, rfl, List.forall_mem_nil _⟩

theorem declared_eq_nil {lines : List String}
    (h : ∀ l ∈ lines, ValueDeclaration.read? l.toList = none) :
    declared (lines.map String.toList) = [] := by
  simpa [declared, List.filterMap_eq_nil_iff] using h

theorem declared_append (ls ls' : List (List Char)) :
    declared (ls ++ ls') = declared ls ++ declared ls' :=
  List.filterMap_append

theorem declared_values :
    declared ((Feature.all.map valueLine).map String.toList) = Feature.all.map ofFeature := by
  decide

theorem declared_aliases {rs : List FeatureRef} (resolved : ∀ r ∈ rs, r.IsResolved) :
    declared ((rs.map aliasLine).map String.toList) = rs.map ofAlias := by
  rw [declared, List.map_map, List.filterMap_map, ← List.filterMap_eq_map]
  refine List.filterMap_congr fun r hr => ?_
  exact read?_declaration _ (not_mem_column (resolved r hr) (by decide))

/-- What the prologue declares. -/
def prologueDeclarations (m : Model) : List ValueDeclaration :=
  Feature.all.map ofFeature ++ m.aliases.map ofAlias

theorem declared_prologue (resolved : m.IsResolved) :
    declared ((prologueLines m).map String.toList) = prologueDeclarations m := by
  simp only [prologueLines, List.map_append, declared_append]
  rw [declared_eq_nil read?_descriptors, declared_values, List.nil_append,
    declared_aliases fun r hr => Model.isResolved_of_mem_aliases resolved hr, prologueDeclarations]

/-! The spellings. -/

theorem isCanonical_iff (resolved : r.IsResolved) :
    r.isCanonical ↔ r.column ∈ Feature.all.map Feature.columnName := by
  obtain ⟨f, column⟩ := r
  rcases FeatureRef.isResolved_iff.mp resolved with spelled | spelled <;>
    (simp only at spelled; subst spelled; cases f <;> decide)

/-- The spellings that are kept, one of each, in order of appearance. -/
theorem map_column_spellings (seen : List String) {rs : List FeatureRef}
    (resolved : ∀ r ∈ rs, r.IsResolved) :
    (Model.spellings seen rs).map FeatureRef.column =
      ((rs.map FeatureRef.column).filter fun column =>
        column ∉ Feature.all.map Feature.columnName ∧ column ∉ seen).eraseDups := by
  induction rs generalizing seen with
  | nil => rfl
  | cons r rs ih =>
    rw [List.forall_mem_cons] at resolved
    have canonical := isCanonical_iff resolved.1
    rw [Model.spellings, List.map_cons]
    by_cases dropped : r.isCanonical ∨ r.column ∈ seen
    · have out : ¬(r.column ∉ Feature.all.map Feature.columnName ∧ r.column ∉ seen) := by
        rw [← canonical]
        tauto
      rw [if_pos (by simpa using dropped), List.filter_cons_of_neg (by simpa using out),
        ih _ resolved.2]
    · have kept : r.column ∉ Feature.all.map Feature.columnName ∧ r.column ∉ seen := by
        rw [← canonical]
        tauto
      rw [if_neg (by simpa using dropped), List.filter_cons_of_pos (by simpa using kept),
        List.eraseDups_cons, List.map_cons, ih _ resolved.2, List.filter_filter]
      congr 2
      refine List.filter_congr fun column _ => ?_
      rw [Bool.eq_iff_iff]
      simp only [decide_eq_true_eq, List.mem_cons, not_or, Bool.and_eq_true, Bool.not_eq_eq_eq_not,
        Bool.not_true, beq_eq_false_iff_ne]
      tauto

theorem columns_aliases (resolved : m.IsResolved) :
    m.aliases.map FeatureRef.column = otherSpellings m := by
  have each : ∀ r ∈ m.hypotheses.map Hypothesis.feature, r.IsResolved := by
    intro r hr
    obtain ⟨h, hh, rfl⟩ := List.mem_map.mp hr
    exact resolved h hh
  rw [Model.aliases, map_column_spellings [] each, List.map_map]
  simp [otherSpellings, Function.comp_def]

/-! Where the initialisers lead. -/

theorem origin_append (ds es : List ValueDeclaration) (name : String) :
    origin (ds ++ es) name = origin es (origin ds name) := by
  induction ds generalizing name with
  | nil => rfl
  | cons d ds ih =>
    rw [List.cons_append, origin, origin]
    split <;> exact ih _

theorem origin_cons_alias (r : FeatureRef) (ds : List ValueDeclaration) (name : String) :
    origin (ofAlias r :: ds) name =
      if valueIdentifier r.column = name then origin ds (valueIdentifier r.feature.columnName)
      else origin ds name := rfl

/-- A column name is no alias, so nothing is found for it among the aliases. -/
theorem origin_aliases_columnName {rs : List FeatureRef} (resolved : ∀ r ∈ rs, r.IsResolved)
    (other : ∀ r ∈ rs, r.isCanonical = false) (f : Feature) :
    origin (rs.map ofAlias) (valueIdentifier f.columnName) = valueIdentifier f.columnName := by
  induction rs with
  | nil => rfl
  | cons r rs ih =>
    rw [List.forall_mem_cons] at resolved other
    have differs : valueIdentifier r.column ≠ valueIdentifier f.columnName := by
      intro same
      have named : r.column ∈ Feature.all.map Feature.columnName := by
        rw [valueIdentifier_inj same]
        exact List.mem_map_of_mem (by cases f <;> decide)
      rw [← isCanonical_iff resolved.1, other.1] at named
      contradiction
    rw [List.map_cons, origin_cons_alias, if_neg differs]
    exact ih resolved.2 other.2

/-- An alias leads to the column name of its feature. -/
theorem origin_aliases {rs : List FeatureRef} (resolved : ∀ r ∈ rs, r.IsResolved)
    (other : ∀ r ∈ rs, r.isCanonical = false) (mem : r ∈ rs) :
    origin (rs.map ofAlias) (valueIdentifier r.column) = valueIdentifier r.feature.columnName := by
  induction rs with
  | nil => simp at mem
  | cons s rs ih =>
    rw [List.map_cons, origin_cons_alias]
    by_cases same : s.column = r.column
    · obtain rfl := (resolved s (by simp)).eq_of_column_eq (resolved r mem) same
      rw [if_pos rfl]
      exact origin_aliases_columnName (fun t ht => resolved t (by simp [ht]))
        (fun t ht => other t (by simp [ht])) s.feature
    · rw [if_neg fun eq => same (valueIdentifier_inj eq)]
      refine ih (fun t ht => resolved t (by simp [ht])) (fun t ht => other t (by simp [ht])) ?_
      rcases List.mem_cons.mp mem with rfl | later
      · exact absurd rfl same
      · exact later

theorem origin_values (f : Feature) :
    origin (Feature.all.map ofFeature).reverse (valueIdentifier f.columnName) =
      f.variableName ++ ".describe(objs, subject)" := by
  cases f <;> decide

/-- A spelling that a hypothesis uses leads to the descriptor of its feature. -/
theorem origin_prologueDeclarations (resolved : m.IsResolved) {h : Hypothesis}
    (hh : h ∈ m.hypotheses) :
    origin (prologueDeclarations m).reverse (valueIdentifier h.feature.column) =
      h.feature.feature.variableName ++ ".describe(objs, subject)" := by
  have aliases : ∀ r ∈ m.aliases.reverse, r.IsResolved ∧ r.isCanonical = false := fun r hr =>
    have hr := List.mem_reverse.mp hr
    ⟨Model.isResolved_of_mem_aliases resolved hr, (Model.mem_of_mem_spellings hr).2.1⟩
  rw [prologueDeclarations, List.reverse_append, ← List.map_reverse, origin_append]
  cases canonical : h.feature.isCanonical with
  | true =>
    have column : h.feature.column = h.feature.feature.columnName := by
      simpa [FeatureRef.isCanonical] using canonical
    rw [column, origin_aliases_columnName (fun r hr => (aliases r hr).1)
      (fun r hr => (aliases r hr).2), origin_values]
  | false =>
    obtain ⟨r, hr, same⟩ := Model.exists_mem_spellings
      (List.mem_map_of_mem hh) canonical List.not_mem_nil
    obtain rfl := (Model.isResolved_of_mem_aliases resolved hr).eq_of_column_eq (resolved h hh) same
    rw [origin_aliases (fun r hr => (aliases r hr).1) (fun r hr => (aliases r hr).2)
      (List.mem_reverse.mpr hr), origin_values]

/-! The declarations of a source. -/

/-- What the lines of a function declare for the votes of a model. -/
structure DeclaresValues (m : Model) (lines : List (List Char)) : Prop where
  /-- The column names of all features come first, then the other spellings of the model. -/
  names : (declared lines).map name =
    (Feature.all.map Feature.columnName ++ otherSpellings m).map valueIdentifier
  nodup : ((declared lines).map name).Nodup
  new : ∀ d ∈ declared lines, d.name ∉ otherNames
  /-- No vote stands in front of a declaration. -/
  before : ∃ front back, lines = front ++ back ∧ front.filter isVoteLine = [] ∧ declared back = []
  alias_iff : ∀ column, column ∉ Feature.all.map Feature.columnName →
    (valueIdentifier column ∈ (declared lines).map name ↔
      ∃ h ∈ m.hypotheses, h.feature.column = column)
  /-- The votes use the spellings of their hypotheses, -/
  votes : lines.filter isVoteLine = statements m
  /-- and these are declared and lead to the descriptors of their features. -/
  value : ∀ h ∈ m.hypotheses, valueIdentifier h.feature.column ∈ (declared lines).map name ∧
    origin (declared lines).reverse (valueIdentifier h.feature.column) =
      h.feature.feature.variableName ++ ".describe(objs, subject)"

theorem map_name_prologueDeclarations (resolved : m.IsResolved) :
    (prologueDeclarations m).map name =
      (Feature.all.map Feature.columnName ++ otherSpellings m).map valueIdentifier := by
  rw [← columns_aliases resolved]
  simp [prologueDeclarations, ofFeature, ofAlias, Function.comp_def]

theorem mem_names_iff {column : String} (resolved : m.IsResolved) :
    valueIdentifier column ∈ (prologueDeclarations m).map name ↔
      column ∈ Feature.all.map Feature.columnName ∨
        ∃ h ∈ m.hypotheses, h.feature.column = column := by
  have used : column ∈ m.hypotheses.map (fun h => h.feature.column) ↔
      ∃ h ∈ m.hypotheses, h.feature.column = column := List.mem_map
  rw [map_name_prologueDeclarations resolved,
    List.mem_map_of_injective fun _ _ => valueIdentifier_inj, List.mem_append, otherSpellings,
    List.mem_eraseDups, List.mem_filter, decide_eq_true_iff, used]
  tauto

theorem nodup_names (resolved : m.IsResolved) : ((prologueDeclarations m).map name).Nodup := by
  rw [map_name_prologueDeclarations resolved]
  refine List.Nodup.map (fun _ _ => valueIdentifier_inj) (List.nodup_append.mpr ⟨by decide, ?_, ?_⟩)
  · rw [← columns_aliases resolved]
    exact Model.nodup_spellings
  · rintro column named _ other rfl
    rw [otherSpellings, List.mem_eraseDups, List.mem_filter] at other
    exact of_decide_eq_true other.2 named

theorem not_mem_otherNames (column : String) : valueIdentifier column ∉ otherNames := by
  intro mem
  have no_value : ∀ x ∈ otherNames, x.toList.take 2 ≠ ['v', 'a'] := by decide
  exact valueIdentifier_ne column (no_value _ mem) rfl

/-- The lines behind the head of the function are what matters. -/
theorem declaresValues_of_front (resolved : m.IsResolved) {front : List String}
    (head : ∀ l ∈ front, l ∈ headLines m s) :
    DeclaresValues m ((front ++ prologueLines m ++ voteLines m ++ scanLines m).map
      String.toList) := by
  have front_declared : declared (front.map String.toList) = [] :=
    declared_eq_nil fun l hl => read?_head m s l (head l hl)
  have front_votes : (front.map String.toList).filter isVoteLine = [] :=
    filter_eq_nil_of_isVoteLine fun l hl => isVoteLine_headLines m s l (head l hl)
  have all : declared ((front ++ prologueLines m ++ voteLines m ++ scanLines m).map
      String.toList) = prologueDeclarations m := by
    simp only [List.map_append, declared_append, front_declared, declared_prologue resolved,
      declared_eq_nil (read?_votes m), declared_eq_nil (read?_scan m), List.nil_append,
      List.append_nil]
  constructor
  · rw [all, map_name_prologueDeclarations resolved]
  · rw [all]
    exact nodup_names resolved
  · rw [all]
    intro d hd
    have named := List.mem_map_of_mem (f := name) hd
    rw [map_name_prologueDeclarations resolved] at named
    obtain ⟨column, -, same⟩ := List.mem_map.mp named
    rw [← same]
    exact not_mem_otherNames column
  · refine ⟨(front ++ prologueLines m).map String.toList,
      (voteLines m ++ scanLines m).map String.toList, by simp, ?_, ?_⟩
    · rw [List.map_append, List.filter_append, front_votes,
        filter_eq_nil_of_isVoteLine (isVoteLine_prologueLines m)]
      rfl
    · rw [List.map_append, declared_append, declared_eq_nil (read?_votes m),
        declared_eq_nil (read?_scan m)]
      rfl
  · intro column other
    rw [all, mem_names_iff resolved]
    exact or_iff_right other
  · exact filter_isVoteLine_of_front head
  · rw [all]
    exact fun h hh => ⟨(mem_names_iff resolved).mpr (.inr ⟨h, hh, rfl⟩),
      origin_prologueDeclarations resolved hh⟩

/-- Two features under both of their spellings; some numbers look like declarations. -/
def mixedModel : Model where
  classes := ⟨["double value = 1;"], by decide⟩
  hypotheses := [
    ⟨"1", "double valuetop = 2;", ⟨.topPosition, "topPosition"⟩, ["1"]⟩,
    ⟨"2", "0", ⟨.aspectRatio, "AspectRatio"⟩, ["  double valueTopPosition = 3;"]⟩,
    ⟨"3", "0", ⟨.topPosition, "topPosition"⟩, [""]⟩,
    ⟨"4", "0", ⟨.aspectRatio, "aspectRatio"⟩, ["-1"]⟩]
  hypotheses_ne_nil := by decide
  votes_length := by decide

/-- The name of the header brings in a declaration of its own. -/
def wideSettings : Settings :=
  { Settings.default with headerFile := "a\n  double valueTopPosition = 0;\n" }

end StumpCompiler.Cpp
