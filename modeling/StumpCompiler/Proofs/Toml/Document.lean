import StumpCompiler.Proofs.Toml.Quoted
import StumpCompiler.Toml.Parse

/-! Documents of lines that give texts to bare keys are read back: the table has the text of each
key. -/

namespace StumpCompiler.Toml

open Text (Position Cursor Partial Scan)

variable {rest : List Char}

theorem reads_no_blanks (stops : ∀ c ∈ rest.head?, isBlank c = false) :
    blanks.Reads [] rest fun _ => True :=
  reads_blanks (by simp) stops

theorem reads_space (stops : ∀ c ∈ rest.head?, isBlank c = false) :
    blanks.Reads [' '] rest fun _ => True :=
  reads_blanks (by simp [isBlank]) stops

/-! Keys. -/

/-- A key that is written as it is. -/
structure IsBareKey (key : String) : Prop where
  ne_empty : key ≠ ""
  bare : ∀ c ∈ key.toList, isBare c

theorem ne_of_isBare {c d : Char} (bare : isBare c) (other : isBare d = false) : c ≠ d := by
  rintro rfl
  rw [bare] at other
  contradiction

theorem IsBareKey.exists_cons {key : String} (h : IsBareKey key) :
    ∃ c cs, key.toList = c :: cs ∧ isBare c ∧ ∀ d ∈ cs, isBare d := by
  obtain ⟨c, cs, eq⟩ := List.exists_cons_of_ne_nil (by simpa using h.ne_empty : key.toList ≠ [])
  have bare := h.bare
  rw [eq, List.forall_mem_cons] at bare
  exact ⟨c, cs, eq, bare⟩

theorem isBlank_of_isBare {c : Char} (bare : isBare c) : isBlank c = false := by
  have space := ne_of_isBare bare (d := ' ') (by decide)
  have tab := ne_of_isBare bare (d := '\t') (by decide)
  simp [isBlank, space, tab]

theorem not_isPrefixOf_of_isBare {c d : Char} (bare : isBare c) (other : isBare d = false)
    (ds cs : List Char) : (d :: ds).isPrefixOf (c :: cs) = false :=
  Text.isPrefixOf_of_ne (ne_of_isBare bare other) ds cs

theorem reads_simpleKey {key : String} (h : IsBareKey key)
    (stops : ∀ c ∈ rest.head?, isBare c = false) :
    simpleKey.Reads key.toList rest (· = key) := by
  obtain ⟨c, cs, eq, first, more⟩ := h.exists_cons
  have same : key = String.ofList (c :: cs) := by rw [← eq, String.ofList_toList]
  rw [eq]
  refine .bind_not_accept (not_isPrefixOf_of_isBare first (by decide) _ _) ?_
  refine .bind_not_accept (not_isPrefixOf_of_isBare first (by decide) _ _) ?_
  refine .bind_cons (.one first) ?_
  exact .bind_all_eq (.takeWhile more stops) (.pure same.symm)

theorem reads_dottedKey {key : String} (h : IsBareKey key) :
    dottedKey.Reads (key.toList ++ [' ']) ('=' :: rest) (· = ([], key)) := by
  obtain ⟨c, cs, eq, first, -⟩ := h.exists_cons
  have part : keyPart.Reads (key.toList ++ [' ']) ('=' :: rest) (· = key) := by
    refine .bind_nothing (reads_no_blanks ?_) fun _ _ => ?_
    · simpa [eq] using isBlank_of_isBare first
    refine .bind_eq (reads_simpleKey h (by simp; decide)) ?_
    exact .bind_all (reads_space (by simp [isBlank])) fun _ _ => .pure rfl
  refine .bind_all_eq part (.bind_nothing_eq (a := ([], key)) ?_ (.pure rfl))
  exact .loop_stop (fun _ => rfl) rfl

/-! Lines. -/

/-- A key with its text. -/
abbrev Given := String × String

def lineText (g : Given) : List Char :=
  g.1.toList ++ [' '] ++ (['='] ++ ([' '] ++ (quote g.2).toList))

def Given.statement (g : Given) : Statement :=
  .assignment [] g.1 (.string g.2)

theorem exists_quote_eq (s : String) :
    ∃ c cs, (quote s).toList = c :: cs ∧ (c = '"' ∨ c = '\'') := by
  rw [quote, String.toList_ofList]
  cases Kind.ofText s.toList with
  | basic => exact ⟨_, _, rfl, .inl rfl⟩
  | literal => exact ⟨_, _, rfl, .inr rfl⟩
  | longBasic => exact ⟨_, _, rfl, .inl rfl⟩
  | longLiteral => exact ⟨_, _, rfl, .inr rfl⟩

theorem reads_value (s : String) (stops : ∀ c ∈ rest.head?, c ≠ '"' ∧ c ≠ '\'') :
    (value maxDepth).Reads (quote s).toList rest (· = .string s) := by
  have reads := reads_quote s stops
  obtain ⟨c, cs, eq, starts⟩ := exists_quote_eq s
  rw [eq] at reads ⊢
  have scalar : scalar.Reads (c :: cs) rest (· = .string s) := by
    refine .peek ?_
    rcases starts with rfl | rfl
    · exact .bind_all_eq reads (.pure rfl)
    · exact .bind_all_eq reads (.pure rfl)
  refine .peek ?_
  rcases starts with rfl | rfl
  · exact scalar
  · exact scalar

theorem reads_assignment (g : Given) (h : IsBareKey g.1) :
    (assignment (value maxDepth)).Reads (lineText g) ('\n' :: rest)
      (· = ([], g.1, .string g.2)) := by
  obtain ⟨c, cs, eq, starts⟩ := exists_quote_eq g.2
  refine .bind_eq (reads_dottedKey h) (.bind .word fun _ _ => ?_)
  refine .bind (reads_space ?_) fun _ _ => ?_
  · rcases starts with rfl | rfl <;> simp [eq, isBlank]
  refine .bind_all_eq (reads_value g.2 (by simp)) ?_
  exact .bind_nothing (reads_no_blanks (by simp [isBlank])) fun _ _ => .pure rfl

theorem reads_statement (g : Given) (h : IsBareKey g.1) :
    statement.Reads (lineText g) ('\n' :: rest) (· = some g.statement) := by
  obtain ⟨c, cs, eq, first, -⟩ := h.exists_cons
  obtain ⟨more, starts⟩ : ∃ more, lineText g = c :: more := ⟨_, by rw [lineText, eq]; rfl⟩
  have reads : (assignment (value maxDepth)).Reads (lineText g) ('\n' :: rest) _ :=
    reads_assignment g h
  rw [starts] at reads ⊢
  refine .bind_not_accept (not_isPrefixOf_of_isBare first (by decide) _ _) ?_
  refine .bind_not_accept (not_isPrefixOf_of_isBare first (by decide) _ _) ?_
  refine .peek ?_
  split
  · contradiction
  · next h => exact absurd (Option.some.inj h) (ne_of_isBare first (by decide))
  · next h => exact absurd (Option.some.inj h) (ne_of_isBare first (by decide))
  · next h => exact absurd (Option.some.inj h) (ne_of_isBare first (by decide))
  · exact .bind_all_eq reads (.pure rfl)

theorem reads_no_comment (other : ∀ c ∈ rest.head?, c ≠ '#') :
    comment.Reads [] rest fun _ => True := by
  have absent : "#".toList.isPrefixOf rest = false := by
    cases rest with
    | nil => rfl
    | cons c cs => exact Text.isPrefixOf_of_ne (other c rfl) [] cs
  exact .bind_not_accept absent (.pure trivial)

theorem reads_line (g : Given) (h : IsBareKey g.1) :
    line.Reads (lineText g) ('\n' :: rest) (· = some g.statement) := by
  obtain ⟨c, cs, eq, first, -⟩ := h.exists_cons
  refine .bind_nothing (reads_no_blanks ?_) fun _ _ => ?_
  · simpa [lineText, eq] using isBlank_of_isBare first
  refine .bind_all_eq (reads_statement g h) ?_
  refine .bind_nothing (reads_no_blanks (by simp [isBlank])) fun _ _ => ?_
  exact .bind_nothing (reads_no_comment (by simp)) fun _ _ => .pure rfl

theorem reads_last_line : line.Reads [] [] (· = none) := by
  have silent : statement.Reads [] [] (· = none) :=
    .bind_not_accept rfl (.bind_not_accept rfl (.peek (.pure rfl)))
  refine .bind_nothing (reads_no_blanks (by simp)) fun _ _ => ?_
  refine .bind_all_eq silent ?_
  refine .bind_nothing (reads_no_blanks (by simp)) fun _ _ => ?_
  exact .bind_nothing (reads_no_comment (by simp)) fun _ _ => .pure rfl

/-- A document with a line for each key. -/
def documentText (gs : List Given) : List Char :=
  gs.flatMap fun g => lineText g ++ ['\n']

theorem documentText_cons (g : Given) (gs : List Given) :
    documentText (g :: gs) = lineText g ++ ('\n' :: documentText gs) := by
  simp [documentText]

theorem reads_lines (gs : List Given) (bare : ∀ g ∈ gs, IsBareKey g.1) :
    lines.Reads (documentText gs) [] (· = gs.map Given.statement) := by
  cases gs with
  | nil =>
    exact .bind_nothing_eq reads_last_line (.bind_nothing_eq (.loop_end rfl) (.pure rfl))
  | cons g gs =>
    rw [List.forall_mem_cons] at bare
    rw [documentText_cons]
    -- Behind the first line, a round of the loop reads a line break and the line that follows it. The
    -- last one is empty.
    refine .bind_eq (reads_line g bare.1) ?_
    refine .bind_all_eq (a := (gs.map Given.statement).reverse ++ [g.statement]) ?_
      (.pure (by simp))
    show (Scan.loop _ [g.statement]).Reads _ _ _
    generalize [g.statement] = ss
    replace bare := bare.2
    induction gs generalizing ss with
    | nil =>
      change (Scan.loop _ ss).Reads ('\n' :: [] ++ []) [] _
      refine .loop_step_eq (fun place => ⟨_, rfl, ?_⟩) (.loop_end rfl)
      exact .bind_all_eq reads_last_line (.pure rfl)
    | cons g gs ih =>
      rw [List.forall_mem_cons] at bare
      rw [documentText_cons]
      change (Scan.loop _ ss).Reads ('\n' :: lineText g ++ ('\n' :: documentText gs)) [] _
      refine .loop_step_eq (fun place => ⟨_, rfl, ?_⟩)
        (by simpa using ih (g.statement :: ss) bare.2)
      exact .bind_all_eq (reads_line g bare.1) (.pure rfl)

/-! The table of a document. -/

theorem Table.find?_put (t : Table) (key k : String) (item : Item) :
    (t.put key item).find? k = if k = key then some item else t.find? k := by
  simp only [find?, put, entries, Association.lookup_put, beq_iff_eq]

theorem Table.origin_put (t : Table) (key : String) (item : Item) :
    (t.put key item).origin = t.origin := rfl

theorem add_statement {t : Table} (g : Given) (root : t.origin = .header)
    (fresh : t.find? g.1 = none) :
    Draft.add ⟨t, []⟩ g.statement = some ⟨t.put g.1 (.value (.string g.2)), []⟩ := by
  simp [Draft.add, Given.statement, Table.within, Table.assign, root, fresh]

/-- What a key has in a document of texts. -/
def itemOf? (gs : List Given) (key : String) : Option Item :=
  (gs.lookup key).map fun s => .value (.string s)

theorem foldlM_add {gs : List Given} (distinct : (gs.map Prod.fst).Nodup) {t : Table}
    (root : t.origin = .header) (fresh : ∀ g ∈ gs, t.find? g.1 = none) :
    ∃ t', (gs.map Given.statement).foldlM Draft.add ⟨t, []⟩ = some ⟨t', []⟩ ∧
      ∀ key, t'.find? key = (itemOf? gs key).or (t.find? key) := by
  induction gs generalizing t with
  | nil => exact ⟨t, rfl, fun _ => rfl⟩
  | cons g gs ih =>
    rw [List.map_cons, List.nodup_cons] at distinct
    rw [List.forall_mem_cons] at fresh
    have others : ∀ h ∈ gs, (t.put g.1 (.value (.string g.2))).find? h.1 = none := by
      intro h mem
      rw [Table.find?_put, if_neg]
      · exact fresh.2 h mem
      · rintro same
        exact distinct.1 (same ▸ List.mem_map_of_mem mem)
    obtain ⟨t', run, found⟩ := ih distinct.2 ((t.origin_put _ _).trans root) others
    refine ⟨t', ?_, fun key => ?_⟩
    · rw [List.map_cons, List.foldlM_cons, add_statement g root fresh.1]
      exact run
    · rw [found, Table.find?_put, itemOf?, itemOf?, List.lookup_cons]
      by_cases same : key = g.1
      · simp [same, Association.lookup_eq_none distinct.1]
      · simp [same, beq_false_of_ne same]

theorem exists_tableOf {gs : List Given} (distinct : (gs.map Prod.fst).Nodup) :
    ∃ t, tableOf (gs.map Given.statement) = some t ∧ ∀ key, t.find? key = itemOf? gs key := by
  obtain ⟨t, run, found⟩ := foldlM_add distinct (t := .empty .header) rfl fun _ _ => rfl
  exact ⟨t, by rw [tableOf, Draft.start, run]; rfl, fun key => (found key).trans Option.or_none⟩

/-- Keys of their own and texts for them are read back from a document with a line for each. -/
theorem exists_parse {gs : List Given} (bare : ∀ g ∈ gs, IsBareKey g.1)
    (distinct : (gs.map Prod.fst).Nodup) :
    ∃ t, parse? (documentText gs) = some t ∧ ∀ key, t.find? key = itemOf? gs key := by
  obtain ⟨t, table, found⟩ := exists_tableOf distinct
  refine ⟨t, ?_, found⟩
  have no_mark : (documentText gs).head? ≠ some '\uFEFF' := by
    cases gs with
    | nil => simp [documentText]
    | cons g gs =>
      obtain ⟨c, cs, eq, first, -⟩ := (bare g (by simp)).exists_cons
      simpa [documentText_cons, lineText, eq] using ne_of_isBare first (by decide)
  rw [parse?]
  simp only [if_neg no_mark, Scan.whole_eq_ok (reads_lines gs bare)]
  exact table

end StumpCompiler.Toml
