import StumpCompiler.Proofs.Json
import StumpCompiler.Proofs.Settings
import StumpCompiler.Proofs.Toml.Document
import StumpCompiler.Settings.Files

/-! What a settings file gives: each field at most one value, found in the text by the field's name,
or by its place if the text is a JSON array. -/

namespace StumpCompiler.Settings

variable {f g : Field} {v : String} {changes given : List (Field × String)}
  {values : Field → Option String}

theorem eq_of_get {s t : Settings} (same : ∀ f, s.get f = t.get f) : s = t := by
  obtain ⟨dir, header, source, guard, features⟩ := s
  congr
  · exact same .outputDir
  · exact same .headerFile
  · exact same .sourceFile
  · exact same .includeGuard
  · exact same .featuresHeader

theorem get_set (s : Settings) (f g : Field) (v : String) :
    (s.set f v).get g = if g = f then v else s.get g := by
  cases f <;> cases g <;> rfl

/-- Values over settings; fields without one keep theirs. -/
def overlay (s : Settings) (values : Field → Option String) : Settings where
  outputDir := (values .outputDir).getD s.outputDir
  headerFile := (values .headerFile).getD s.headerFile
  sourceFile := (values .sourceFile).getD s.sourceFile
  includeGuard := (values .includeGuard).getD s.includeGuard
  featuresHeader := (values .featuresHeader).getD s.featuresHeader

theorem get_overlay (s : Settings) (values : Field → Option String) (f : Field) :
    (s.overlay values).get f = (values f).getD (s.get f) := by
  cases f <;> rfl

theorem setAll_eq (distinct : (changes.map Prod.fst).Nodup) (s : Settings) :
    s.setAll changes = s.overlay (changes.lookup ·) := by
  refine eq_of_get fun g => ?_
  rw [get_overlay]
  induction changes generalizing s with
  | nil => rfl
  | cons c changes ih =>
    obtain ⟨f, v⟩ := c
    rw [List.map_cons, List.nodup_cons] at distinct
    rw [show s.setAll ((f, v) :: changes) = (s.set f v).setAll changes from rfl,
      ih distinct.2, get_set, List.lookup_cons]
    by_cases same : g = f
    · subst same
      simp [Association.lookup_eq_none distinct.1]
    · simp [same, beq_false_of_ne same]

/-- The list has each field at most once, with the value that is given to it. -/
structure Lists (changes : List (Field × String)) (gives : Field → String → Prop) : Prop where
  distinct : (changes.map Prod.fst).Nodup
  mem_iff : ∀ {f v}, (f, v) ∈ changes ↔ gives f v

namespace Lists

variable {gives : Field → String → Prop}

theorem cons (h : Lists changes gives) (fresh : ∀ u, ¬gives f u) :
    Lists ((f, v) :: changes) fun g u => g = f ∧ u = v ∨ gives g u := by
  refine ⟨?_, ?_⟩
  · rw [List.map_cons, List.nodup_cons]
    refine ⟨fun listed => ?_, h.distinct⟩
    obtain ⟨⟨g, u⟩, mem, rfl⟩ := List.mem_map.mp listed
    exact fresh u (h.mem_iff.mp mem)
  · intro g u
    rw [List.mem_cons, Prod.mk.injEq, h.mem_iff]

theorem congr {gives' : Field → String → Prop} (h : Lists changes gives)
    (same : ∀ f v, gives f v ↔ gives' f v) : Lists changes gives' :=
  ⟨h.distinct, h.mem_iff.trans (same _ _)⟩

theorem lookup_eq (h : Lists changes gives) : changes.lookup f = some v ↔ gives f v :=
  (Association.lookup_eq_some_iff h.distinct).trans h.mem_iff

theorem setAll_eq (h : Lists changes gives) (same : ∀ f v, values f = some v ↔ gives f v)
    (s : Settings) : s.setAll changes = s.overlay values := by
  have lookup : (changes.lookup ·) = values := by
    funext f
    exact Option.ext fun v => h.lookup_eq.trans (same f v).symm
  rw [Settings.setAll_eq h.distinct, lookup]

end Lists

/-! JSON. -/

theorem ofKey?_key (f : Field) : Field.ofKey? f.key = some f := by
  cases f <;> rfl

theorem ofKey?_eq_some_iff {key : String} : Field.ofKey? key = some f ↔ f.key = key := by
  refine ⟨fun h => ?_, fun h => h ▸ ofKey?_key f⟩
  simpa using List.find?_some h

theorem key_injective : Field.key.Injective := fun f _ same =>
  Option.some.inj ((ofKey?_key f).symm.trans (ofKey?_eq_some_iff.mpr same.symm))

theorem lists_membersJson? {members : List (Option String × Json.Value)}
    {all : List (Field × String)} (read : membersJson? given members = some all)
    (distinct : (given.map Prod.fst).Nodup) :
    Lists all fun f v => (f, v) ∈ given ∨ (some f.key, .string (some v)) ∈ members := by
  fun_induction membersJson? given members with
  | case1 given =>
    obtain rfl := Option.some.inj read
    exact ⟨distinct, by simp⟩
  | case2 => contradiction
  | case3 given key value rest unknown ih =>
    -- A name that is passed over is no field's.
    refine (ih read distinct).congr fun f v => ?_
    have other : f.key ≠ key := fun same => by simp [ofKey?_eq_some_iff.mpr same] at unknown
    simp [other]
  | case4 => contradiction
  | case5 given key rest f known fresh text ih =>
    obtain rfl := ofKey?_eq_some_iff.mp known
    refine (ih read ?_).congr fun g v => ?_
    · rw [List.map_append, List.nodup_append_comm]
      simpa using ⟨by simpa using fresh, distinct⟩
    · simp [or_assoc, key_injective.eq_iff]
  | case6 => contradiction

theorem lists_itemsJson? {fs : List Field} {items : List Json.Value}
    (read : itemsJson? fs items = some given) (distinct : fs.Nodup) :
    Lists given fun f v => ∃ i : ℕ, fs[i]? = some f ∧ items[i]? = some (.string (some v)) := by
  induction items generalizing fs given with
  | nil =>
    obtain rfl : [] = given := by simpa [itemsJson?] using read
    exact ⟨.nil, by simp⟩
  | cons item items ih =>
    unfold itemsJson? at read
    split at read
    · contradiction
    · next f fs text rest same =>
      obtain ⟨rfl, rfl⟩ := List.cons.inj same
      obtain ⟨later, behind, rfl⟩ := Option.map_eq_some_iff.mp read
      rw [List.nodup_cons] at distinct
      refine ((ih behind distinct.2).cons ?_).congr fun g v => ?_
      · rintro v ⟨i, place, -⟩
        exact distinct.1 (List.mem_of_getElem? place)
      · constructor
        · rintro (⟨rfl, rfl⟩ | ⟨i, place, item⟩)
          · exact ⟨0, rfl, rfl⟩
          · exact ⟨i + 1, place, item⟩
        · rintro ⟨_ | i, place, item⟩
          · obtain rfl : f = g := by simpa using place
            obtain rfl : text = v := by simpa using item
            exact .inl ⟨rfl, rfl⟩
          · exact .inr ⟨i, place, item⟩
    · contradiction

/-! TOML. -/

theorem lists_fieldsToml? {t : Toml.Table} {fs : List Field}
    (read : fieldsToml? t fs = some given) (distinct : fs.Nodup) :
    Lists given fun f v => f ∈ fs ∧ t.find? f.key = some (.value (.string v)) := by
  induction fs generalizing given with
  | nil =>
    obtain rfl : [] = given := by simpa [fieldsToml?] using read
    exact ⟨.nil, by simp⟩
  | cons f fs ih =>
    rw [List.nodup_cons] at distinct
    rw [fieldsToml?] at read
    split at read
    · next absent =>
      -- The table has nothing for the first field.
      refine (ih read distinct.2).congr fun g v => ?_
      have other : t.find? g.key = some (.value (.string v)) → g ≠ f := by
        rintro found rfl
        rw [absent] at found
        contradiction
      simp only [List.mem_cons]
      tauto
    · next text found =>
      obtain ⟨later, behind, rfl⟩ := Option.map_eq_some_iff.mp read
      refine ((ih behind distinct.2).cons fun v given => distinct.1 given.1).congr fun g v => ?_
      constructor
      · rintro (⟨rfl, rfl⟩ | ⟨mem, given⟩)
        · exact ⟨List.mem_cons_self, found⟩
        · exact ⟨List.mem_cons_of_mem _ mem, given⟩
      · rintro ⟨mem, given⟩
        rcases List.mem_cons.mp mem with rfl | mem
        · obtain rfl : text = v := by simpa [found] using given
          exact .inl ⟨rfl, rfl⟩
        · exact .inr ⟨mem, given⟩
    · contradiction

/-! Texts in either format. -/

namespace Format

/-- A text gives a value to a field. -/
inductive Gives : Format → List Char → Field → String → Prop
  | member {text : List Char} {members : List (Option String × Json.Value)} {f : Field}
    {v : String} : Json.parse text = .ok (.object members) →
      (some f.key, .string (some v)) ∈ members → Gives json text f v
  | item {text : List Char} {items : List Json.Value} {i : ℕ} {f : Field} {v : String} :
    Json.parse text = .ok (.array items) → Field.all[i]? = some f →
      items[i]? = some (.string (some v)) → Gives json text f v
  | entry {text : List Char} {t : Toml.Table} {f : Field} {v : String} :
    Toml.parse? text = some t → t.find? f.key = some (.value (.string v)) → Gives toml text f v

variable {text : List Char} {format : Format}

theorem gives_object_iff {members : List (Option String × Json.Value)}
    (object : Json.parse text = .ok (.object members)) :
    Gives json text f v ↔ (some f.key, .string (some v)) ∈ members := by
  refine ⟨fun h => ?_, .member object⟩
  cases h with
  | member other mem =>
    cases object.symm.trans other
    exact mem
  | item other => cases object.symm.trans other

theorem gives_array_iff {items : List Json.Value}
    (array : Json.parse text = .ok (.array items)) :
    Gives json text f v ↔
      ∃ i : ℕ, Field.all[i]? = some f ∧ items[i]? = some (.string (some v)) := by
  refine ⟨fun h => ?_, fun ⟨i, place, item⟩ => .item array place item⟩
  cases h with
  | member other => cases array.symm.trans other
  | item other place item =>
    cases array.symm.trans other
    exact ⟨_, place, item⟩

theorem gives_table_iff {t : Toml.Table} (table : Toml.parse? text = some t) :
    Gives toml text f v ↔ t.find? f.key = some (.value (.string v)) := by
  refine ⟨fun h => ?_, .entry table⟩
  cases h with
  | entry other found =>
    cases table.symm.trans other
    exact found

theorem lists_parseJson? (read : parseJson? text = some given) : Lists given (Gives json text) := by
  rw [parseJson?] at read
  split at read
  · contradiction
  · next v parsed =>
    unfold givenJson? at read
    split at read
    · refine (lists_membersJson? read .nil).congr fun f v => ?_
      simp [gives_object_iff parsed]
    · exact (lists_itemsJson? read (by decide)).congr fun f v => (gives_array_iff parsed).symm
    · contradiction

theorem lists_parseToml? (read : parseToml? text = some given) : Lists given (Gives toml text) := by
  obtain ⟨t, parsed, read⟩ := Option.bind_eq_some_iff.mp read
  refine (lists_fieldsToml? read (by decide)).congr fun f v => ?_
  have known : f ∈ Field.all := by cases f <;> decide
  simp [gives_table_iff parsed, known]

theorem lists_parse (read : format.parse text = .ok given) : Lists given (format.Gives text) := by
  cases format with
  | json => exact lists_parseJson? (elim_eq_ok_iff.mp read)
  | toml => exact lists_parseToml? (elim_eq_ok_iff.mp read)

end Format

/-! Files that give some fields, in any order. -/

/-- A field under its name. -/
def named (c : Field × String) : String × String := (c.1.key, c.2)

theorem membersJson?_named (given : List (Field × String))
    (distinct : ((given ++ changes).map Prod.fst).Nodup) :
    membersJson? given (changes.map fun c => (some c.1.key, .string (some c.2))) =
      some (given ++ changes) := by
  induction changes generalizing given with
  | nil => simp [membersJson?]
  | cons c changes ih =>
    have fresh : given.any (·.1 = c.1) = false := by
      rw [List.map_append, List.map_cons, List.nodup_append] at distinct
      rw [List.any_eq_false]
      intro g mem
      simpa using distinct.2.2 g.1 (List.mem_map_of_mem mem) c.1 List.mem_cons_self
    have later := ih (given ++ [c]) (by simpa using distinct)
    simpa [membersJson?, ofKey?_key, fresh] using later

theorem parse_braces : Json.parse ['\x7b', '\x7d'] = .ok (.object []) := rfl

theorem isBareKey_key (f : Field) : Toml.IsBareKey f.key := by
  cases f <;> exact ⟨by decide, by simp [Field.key, Toml.isBare]⟩

theorem itemOf?_named (changes : List (Field × String)) (f : Field) :
    Toml.itemOf? (changes.map named) f.key = (changes.lookup f).map fun v => .value (.string v) := by
  have lookup : (changes.map named).lookup f.key = changes.lookup f := by
    induction changes with
    | nil => rfl
    | cons c changes ih =>
      obtain ⟨g, v⟩ := c
      have keys : (f.key == g.key) = (f == g) := by
        rw [Bool.eq_iff_iff, beq_iff_eq, beq_iff_eq, key_injective.eq_iff]
      rw [List.map_cons, named, List.lookup_cons, List.lookup_cons, keys, ih]
  rw [Toml.itemOf?, lookup]

theorem exists_fieldsToml? {t : Toml.Table} {fs : List Field}
    (texts : ∀ f ∈ fs, ∀ item ∈ t.find? f.key, ∃ v, item = .value (.string v)) :
    ∃ given, fieldsToml? t fs = some given := by
  induction fs with
  | nil => exact ⟨[], rfl⟩
  | cons f fs ih =>
    rw [List.forall_mem_cons] at texts
    obtain ⟨given, behind⟩ := ih texts.2
    rw [fieldsToml?, behind]
    cases found : t.find? f.key with
    | none => exact ⟨given, rfl⟩
    | some item =>
      obtain ⟨v, rfl⟩ := texts.1 item found
      exact ⟨(f, v) :: given, rfl⟩

namespace Format

/-- A text that gives the fields of a list: an object, or a line for each. -/
def written : Format → List (Field × String) → List Char
  | json, [] => ['\x7b', '\x7d']
  | json, c :: cs => Json.objectText (named c) (cs.map named)
  | toml, cs => Toml.documentText (cs.map named)

theorem parseJson?_written (distinct : (changes.map Prod.fst).Nodup) :
    parseJson? (written json changes) = some changes := by
  cases changes with
  | nil => rw [written, parseJson?, parse_braces]; rfl
  | cons c cs =>
    rw [written, parseJson?, Json.parse_objectText]
    simpa [givenJson?, Json.objectOf, named, Function.comp_def] using
      membersJson?_named [] distinct

theorem exists_parseToml?_written (distinct : (changes.map Prod.fst).Nodup) :
    ∃ given, parseToml? (written toml changes) = some given ∧
      ∀ f v, Gives toml (written toml changes) f v ↔ changes.lookup f = some v := by
  have bare : ∀ g ∈ changes.map named, Toml.IsBareKey g.1 := by
    rw [List.forall_mem_map]
    exact fun c _ => isBareKey_key c.1
  have keys : ((changes.map named).map Prod.fst).Nodup := by
    rw [List.map_map]
    simpa [Function.comp_def, named] using distinct.map key_injective
  obtain ⟨t, parsed, found⟩ : ∃ t, Toml.parse? (written toml changes) = some t ∧
      ∀ key, t.find? key = Toml.itemOf? (changes.map named) key := Toml.exists_parse bare keys
  have texts : ∀ f ∈ Field.all, ∀ item ∈ t.find? f.key, ∃ v, item = .value (.string v) := by
    intro f _ item mem
    rw [found, itemOf?_named, Option.mem_map] at mem
    obtain ⟨v, -, rfl⟩ := mem
    exact ⟨v, rfl⟩
  obtain ⟨given, read⟩ := exists_fieldsToml? texts
  refine ⟨given, by rw [parseToml?, parsed]; exact read, fun f v => ?_⟩
  rw [gives_table_iff parsed, found, itemOf?_named]
  simp

/-- Every choice of fields, in every order, is read back in both formats. -/
theorem exists_parse_written (format : Format) (distinct : (changes.map Prod.fst).Nodup) :
    ∃ given, format.parse (format.written changes) = .ok given ∧
      ∀ f v, format.Gives (format.written changes) f v ↔ changes.lookup f = some v := by
  cases format with
  | json =>
    have read := parseJson?_written distinct
    refine ⟨changes, elim_eq_ok_iff.mpr read, fun f v => ?_⟩
    exact (lists_parseJson? read).lookup_eq.symm
  | toml =>
    obtain ⟨given, read, gives⟩ := exists_parseToml?_written distinct
    exact ⟨given, elim_eq_ok_iff.mpr read, gives⟩

end Format

theorem ofContent_written {path : String} {format : Format}
    (ending : Format.ofPath? path = some format) (distinct : (changes.map Prod.fst).Nodup) :
    ofContent path (.ok (Text.Utf8.encode (format.written changes))) =
      (default.setAll changes).validate := by
  obtain ⟨given, read, gives⟩ := format.exists_parse_written distinct
  have same : default.setAll given = default.setAll changes := by
    rw [setAll_eq distinct]
    exact (Format.lists_parse read).setAll_eq (fun f v => (gives f v).symm) default
  simp only [ofContent, givenIn, Text.Utf8.decode_encode, ending, read, same]

end StumpCompiler.Settings
