import StumpCompiler.Proofs.Settings.Files
import StumpCompiler.Settings.Layers

/-! The settings of a run have each field from the first layer that gives it: a variable, the file
that the environment names, the default values. Settings are checked twice, without and with the
variables, so both have to be accepted. -/

namespace StumpCompiler.Settings

variable {lookup : Lookup} {store : Store} {path : String} {bytes : List UInt8} {text : List Char}
  {format : Format} {f : Field} {v : String} {given changes : List (Field × String)}

/-! Variables. -/

/-- The value that a variable gives to a field. -/
def override? (lookup : Lookup) : Field → Option String
  | .outputDir => lookup "STUMPGEN_OUTPUT_DIR"
  | .headerFile => lookup "STUMPGEN_HEADER_FILE"
  | .sourceFile => lookup "STUMPGEN_SOURCE_FILE"
  | .includeGuard => none
  | .featuresHeader => none

theorem lists_overrides (lookup : Lookup) :
    Lists (overrides lookup) fun f v => override? lookup f = some v := by
  refine ⟨?_, fun {f v} => ?_⟩
  · cases dir : lookup "STUMPGEN_OUTPUT_DIR" <;> cases header : lookup "STUMPGEN_HEADER_FILE" <;>
      cases source : lookup "STUMPGEN_SOURCE_FILE" <;>
      simp [overrides, fieldVariables, dir, header, source]
  · cases f <;> simp [overrides, fieldVariables, override?]

theorem overrides_eq_nil_iff : overrides lookup = [] ↔ ∀ f, override? lookup f = none := by
  have mem_iff {f : Field} {v : String} := (lists_overrides lookup).mem_iff (f := f) (v := v)
  simp only [List.eq_nil_iff_forall_not_mem, Prod.forall, mem_iff, Option.eq_none_iff_forall_ne_some,
    ne_eq]

theorem override_eq (lookup : Lookup) (s : Settings) :
    s.override lookup = (s.overlay (override? lookup)).validate := by
  rw [override, (lists_overrides lookup).setAll_eq fun _ _ => .rfl]

/-! The file. -/

/-- The file that the environment names gives a value to a field. -/
def FileGives (lookup : Lookup) (store : Store) (f : Field) (v : String) : Prop :=
  ∃ path bytes text format, lookup fileVariable = some path ∧ store.read path = .ok bytes ∧
    Text.Utf8.decode bytes = .ok text ∧ Format.ofPath? path = some format ∧
    format.Gives text f v

/-- The values that the file gives. -/
def IsFileLayer (lookup : Lookup) (store : Store) (file : Field → Option String) : Prop :=
  ∀ f v, file f = some v ↔ FileGives lookup store f v

/-- The file that the environment names, if it names one, can be read as settings. -/
def FileIsReadable (lookup : Lookup) (store : Store) : Prop :=
  ∀ path, lookup fileVariable = some path → ∃ given bytes text format,
    store.read path = .ok bytes ∧ Text.Utf8.decode bytes = .ok text ∧
    Format.ofPath? path = some format ∧ format.parse text = .ok given

theorem fileGives_iff (named : lookup fileVariable = some path) (read : store.read path = .ok bytes)
    (decoded : Text.Utf8.decode bytes = .ok text) (ending : Format.ofPath? path = some format) :
    FileGives lookup store f v ↔ format.Gives text f v := by
  refine ⟨?_, fun h => ⟨path, bytes, text, format, named, read, decoded, ending, h⟩⟩
  rintro ⟨path', bytes', text', format', named', read', decoded', ending', h⟩
  obtain rfl := Option.some.inj (named.symm.trans named')
  obtain rfl := Except.ok.inj (read.symm.trans read')
  obtain rfl := Except.ok.inj (decoded.symm.trans decoded')
  obtain rfl := Option.some.inj (ending.symm.trans ending')
  exact h

/-- The file decides its layer. -/
theorem IsFileLayer.unique {file file' : Field → Option String}
    (h : IsFileLayer lookup store file) (h' : IsFileLayer lookup store file') : file = file' := by
  funext f
  exact Option.ext fun v => (h f v).trans (h' f v).symm

theorem isFileLayer_none (unnamed : lookup fileVariable = none) :
    IsFileLayer lookup store fun _ => none := by
  intro f v
  refine ⟨fun h => by contradiction, ?_⟩
  rintro ⟨path, -, -, -, named, -⟩
  rw [unnamed] at named
  contradiction

theorem givenIn_eq_ok_iff {content : Except IoFault (List UInt8)} :
    givenIn path content = .ok given ↔ ∃ bytes text format, content = .ok bytes ∧
      Text.Utf8.decode bytes = .ok text ∧ Format.ofPath? path = some format ∧
      format.parse text = .ok given := by
  rcases content with fault | bytes
  · simp [givenIn]
  cases decoded : Text.Utf8.decode bytes with
  | error fault => simp [givenIn, decoded]
  | ok text =>
    cases ending : Format.ofPath? path with
    | none => simp [givenIn, decoded, ending]
    | some format => simp [givenIn, decoded, ending]

theorem fileIsReadable_iff : FileIsReadable lookup store ↔ ∀ path,
    lookup fileVariable = some path → ∃ given, givenIn path (store.read path) = .ok given := by
  simp only [FileIsReadable, givenIn_eq_ok_iff]

/-! Both together. -/

/-- The origin of settings that are accepted. -/
def origin (lookup : Lookup) : Origin :=
  match lookup fileVariable with
  | some path => .file path
  | none => if (overrides lookup).isEmpty then .default else .environment

theorem accept_eq (lookup : Lookup) (s : Settings) (o : Origin) (w : Workspace) :
    ((liftM (s.override lookup) >>= fun s => pure (s, o)) : Run (Settings × Origin)) w =
      ((s.overlay (override? lookup)).validate >>= fun s => .ok (s, o), w) := by
  rw [override_eq]
  cases (s.overlay (override? lookup)).validate <;> rfl

theorem ofEnvironment_eq (lookup : Lookup) (w : Workspace) :
    ((ofEnvironment lookup : Run (Settings × Origin)) w).1 = do
      let base ← match lookup fileVariable with
        | some path => ofContent path (w.store.read path)
        | none => .ok default
      let s ← (base.overlay (override? lookup)).validate
      return (s, origin lookup) := by
  rw [ofEnvironment, origin]
  cases lookup fileVariable with
  | none =>
    exact congrArg Prod.fst (accept_eq lookup default _ w)
  | some path =>
    -- The note changes the journal, not the file.
    simp only [Run.lift_bind_eq]
    generalize note : (Host.note _ : StateM Workspace Unit) w = noted
    have same : noted.2.store = w.store := by rw [← note]; rfl
    rw [Run.bind_eq, load_eq, same]
    cases ofContent path (w.store.read path) with
    | error fault => rfl
    | ok base => exact congrArg Prod.fst (accept_eq lookup base _ noted.2)

theorem validate_default : default.validate = .ok default := by decide +kernel

theorem fileIsReadable_of_ok {w : Workspace} {r : Settings × Origin}
    (loaded : ((ofEnvironment lookup : Run (Settings × Origin)) w).1 = .ok r) :
    FileIsReadable lookup w.store := by
  rw [fileIsReadable_iff]
  intro path named
  rw [ofEnvironment_eq, named] at loaded
  obtain ⟨base, loaded, -⟩ := bind_eq_ok_iff.mp loaded
  simp only [ofContent] at loaded
  split at loaded
  · contradiction
  · next given found => exact ⟨given, found⟩

/-- What the two checks say of a file over the default values, and of the variables over both. -/
theorem exists_fileLayer {w : Workspace} (readable : FileIsReadable lookup w.store) :
    ∃ file, IsFileLayer lookup w.store file ∧
      ((ofEnvironment lookup : Run (Settings × Origin)) w).1 = do
        let base ← (default.overlay file).validate
        let s ← (base.overlay (override? lookup)).validate
        return (s, origin lookup) := by
  rw [ofEnvironment_eq]
  cases named : lookup fileVariable with
  | none =>
    -- The default values alone are not checked by the program, but they would be accepted.
    refine ⟨fun _ => none, isFileLayer_none named, ?_⟩
    rw [show default.overlay (fun _ => none) = default from rfl, validate_default]
  | some path =>
    obtain ⟨given, bytes, text, format, read, decoded, ending, parsed⟩ := readable path named
    have lists := Format.lists_parse parsed
    refine ⟨(given.lookup ·), fun f v => ?_, ?_⟩
    · rw [lists.lookup_eq, fileGives_iff named read decoded ending]
    · simp only [ofContent, givenIn, read, decoded, ending, parsed, setAll_eq lists.distinct]

/-- Both checks are passed. -/
theorem accepted_iff {base : Settings} {own : Field → Option String} {o : Origin}
    {r : Settings × Origin} :
    (do
      let s ← base.validate
      let s ← (s.overlay own).validate
      return (s, o) : Except Fault (Settings × Origin)) = .ok r ↔
    base.validate = .ok base ∧ (base.overlay own).validate = .ok (base.overlay own) ∧
      r = (base.overlay own, o) := by
  constructor
  · intro loaded
    obtain ⟨s, accepted_base, rest⟩ := bind_eq_ok_iff.mp loaded
    obtain ⟨t, accepted, same⟩ := bind_eq_ok_iff.mp rest
    obtain rfl := (validate_eq_ok_iff.mp accepted_base).2
    obtain rfl := (validate_eq_ok_iff.mp accepted).2
    exact ⟨accepted_base, accepted, (Except.ok.inj same).symm⟩
  · rintro ⟨accepted_base, accepted, rfl⟩
    exact bind_eq_ok_iff.mpr ⟨_, accepted_base, bind_eq_ok_iff.mpr ⟨_, accepted, rfl⟩⟩

theorem origin_eq_file_iff : origin lookup = .file path ↔ lookup fileVariable = some path := by
  rw [origin]
  cases lookup fileVariable with
  | none => cases (overrides lookup).isEmpty <;> simp
  | some path => simp

theorem origin_eq_environment_iff : origin lookup = .environment ↔
    lookup fileVariable = none ∧ ∃ f v, override? lookup f = some v := by
  have some_override : ¬overrides lookup = [] ↔ ∃ f v, override? lookup f = some v := by
    simp [overrides_eq_nil_iff, Option.ne_none_iff_exists']
  rw [origin, ← some_override]
  cases lookup fileVariable with
  | none => cases overrides lookup <;> simp
  | some path => simp

theorem origin_eq_default_iff : origin lookup = .default ↔
    lookup fileVariable = none ∧ ∀ f, override? lookup f = none := by
  rw [origin, ← overrides_eq_nil_iff]
  cases lookup fileVariable with
  | none => cases overrides lookup <;> simp
  | some path => simp

/-! Files that give some fields, in any order. -/

theorem fileIsReadable_written (named : lookup fileVariable = some path)
    (ending : Format.ofPath? path = some format) (distinct : (changes.map Prod.fst).Nodup)
    (read : store.read path = .ok (Text.Utf8.encode (format.written changes))) :
    FileIsReadable lookup store := by
  obtain ⟨given, parsed, -⟩ := format.exists_parse_written distinct
  intro path' named'
  obtain rfl := Option.some.inj (named.symm.trans named')
  exact ⟨given, _, _, format, read, Text.Utf8.decode_encode _, ending, parsed⟩

theorem isFileLayer_written (named : lookup fileVariable = some path)
    (ending : Format.ofPath? path = some format) (distinct : (changes.map Prod.fst).Nodup)
    (read : store.read path = .ok (Text.Utf8.encode (format.written changes))) :
    IsFileLayer lookup store (changes.lookup ·) := by
  obtain ⟨given, -, gives⟩ := format.exists_parse_written distinct
  intro f v
  rw [fileGives_iff named read (Text.Utf8.decode_encode _) ending, gives]

/-! Loading. -/

theorem ofEnvironment_written {w : Workspace} (named : lookup fileVariable = some path)
    (ending : Format.ofPath? path = some format) (distinct : (changes.map Prod.fst).Nodup)
    (read : w.store.read path = .ok (Text.Utf8.encode (format.written changes)))
    {base merged : Settings} (below : base = default.overlay (changes.lookup ·))
    (above : merged = base.overlay (override? lookup)) (accepted_base : base.validate = .ok base)
    (accepted : merged.validate = .ok merged) :
    ((ofEnvironment lookup : Run (Settings × Origin)) w).1 = .ok (merged, .file path) := by
  obtain ⟨file, layer, result⟩ :=
    exists_fileLayer (fileIsReadable_written named ending distinct read)
  obtain rfl := layer.unique (isFileLayer_written named ending distinct read)
  subst below above
  rw [result, accepted_iff, origin_eq_file_iff.mpr named]
  exact ⟨accepted_base, accepted, rfl⟩

/-- Settings that are loaded have each field from the first layer that gives it, are accepted, and
say where they come from. A file gives just the fields that are written in it, in any order, and is
loaded with them if they are accepted. -/
theorem ofEnvironment_layers (lookup : Lookup) (w : Workspace) :
    (∀ s o, ((ofEnvironment lookup : Run (Settings × Origin)) w).1 = .ok (s, o) →
      (∃ file, IsFileLayer lookup w.store file ∧
        ∀ f, s.get f = ((override? lookup f).or (file f)).getD (default.get f)) ∧
      s.validate = .ok s ∧
      (∀ path, o = .file path ↔ lookup fileVariable = some path) ∧
      (o = .environment ↔ lookup fileVariable = none ∧ ∃ f v, override? lookup f = some v) ∧
      (o = .default ↔ lookup fileVariable = none ∧ ∀ f, override? lookup f = none)) ∧
    ∀ path format changes, lookup fileVariable = some path → Format.ofPath? path = some format →
      (changes.map Prod.fst).Nodup →
      w.store.read path = .ok (Text.Utf8.encode (format.written changes)) →
      IsFileLayer lookup w.store (changes.lookup ·) ∧
      ∀ base merged, base = default.overlay (changes.lookup ·) →
        merged = base.overlay (override? lookup) → base.validate = .ok base →
        merged.validate = .ok merged →
        ((ofEnvironment lookup : Run (Settings × Origin)) w).1 = .ok (merged, .file path) := by
  refine ⟨fun s o loaded => ?_, fun path format changes named ending distinct read => ?_⟩
  · obtain ⟨file, layer, result⟩ := exists_fileLayer (fileIsReadable_of_ok loaded)
    obtain ⟨-, accepted, same⟩ := accepted_iff.mp (result.symm.trans loaded)
    obtain ⟨rfl, rfl⟩ := Prod.mk.inj same
    refine ⟨⟨file, layer, fun f => ?_⟩, accepted, fun path => origin_eq_file_iff,
      origin_eq_environment_iff, origin_eq_default_iff⟩
    rw [get_overlay, get_overlay]
    cases override? lookup f <;> rfl
  · exact ⟨isFileLayer_written named ending distinct read,
      fun _ _ => ofEnvironment_written named ending distinct read⟩

/-- Variables that name a settings file, and the header or the source. -/
def namingFile (path : String) (f : Field) (value : String) : Lookup
  | "STUMPGEN_CONFIG" => some path
  | "STUMPGEN_HEADER_FILE" => if f = .headerFile then some value else none
  | "STUMPGEN_SOURCE_FILE" => if f = .sourceFile then some value else none
  | _ => none

/-- A file with some settings. -/
def settingsWorkspace (format : Format) (changes : List (Field × String)) :
    Workspace :=
  ⟨Store.initial.put ["work", "c.toml"] (.file (Text.Utf8.encode (format.written changes))), []⟩

theorem read_settingsWorkspace (format : Format) (changes : List (Field × String)) :
    (settingsWorkspace format changes).store.read "c.toml" =
      .ok (Text.Utf8.encode (format.written changes)) := rfl

def guarded : Settings :=
  { default with headerFile := "b.h", includeGuard := "GUARD" }

theorem ofEnvironment_layers_guarded :
    let lookup := namingFile "c.toml" .headerFile "b.h"
    let changes := [(.includeGuard, "GUARD"), (.headerFile, "a.h")]
    let w := settingsWorkspace .toml changes
    w.store.read "c.toml" = .ok (Text.Utf8.encode (Format.toml.written changes)) ∧
    IsFileLayer lookup w.store (changes.lookup ·) ∧
    ((ofEnvironment lookup : Run (Settings × Origin)) w).1 = .ok (guarded, .file "c.toml") ∧
    guarded.validate = .ok guarded := by
  intro lookup changes w
  have read := read_settingsWorkspace .toml changes
  have ending : Format.ofPath? "c.toml" = some .toml := by decide +kernel
  have layers := ofEnvironment_layers lookup w
  obtain ⟨layer, loaded⟩ := layers.2 "c.toml" .toml changes rfl ending (by decide) read
  have result := loaded _ guarded rfl rfl (by decide +kernel) (by decide +kernel)
  exact ⟨read, layer, result, (layers.1 _ _ result).2.1⟩

/-- With a file that can be read, settings are loaded if they are accepted without the variables and
with them. Else the fault is that of the first check that fails. -/
theorem ofEnvironment_accepts {w : Workspace} (readable : FileIsReadable lookup w.store) :
    ∃ file base merged, IsFileLayer lookup w.store file ∧ base = default.overlay file ∧
      merged = base.overlay (override? lookup) ∧
      ((∃ r, ((ofEnvironment lookup : Run (Settings × Origin)) w).1 = .ok r) ↔
        base.validate = .ok base ∧ merged.validate = .ok merged) ∧
      (∀ fault, ((ofEnvironment lookup : Run (Settings × Origin)) w).1 = .error fault ↔
        base.validate = .error fault ∨
          base.validate = .ok base ∧ merged.validate = .error fault) ∧
      (lookup fileVariable = none → base.validate = .ok base) := by
  obtain ⟨file, layer, result⟩ := exists_fileLayer readable
  refine ⟨file, _, _, layer, rfl, rfl, ?_, fun fault => ?_, fun unnamed => ?_⟩
  · simp only [result, accepted_iff]
    exact ⟨fun ⟨_, accepted_base, accepted, _⟩ => ⟨accepted_base, accepted⟩,
      fun ⟨accepted_base, accepted⟩ => ⟨_, accepted_base, accepted, rfl⟩⟩
  · rw [result, bind_eq_error_iff]
    refine or_congr_right ⟨?_, fun ⟨accepted_base, refused⟩ => ?_⟩
    · rintro ⟨base, accepted_base, refused⟩
      obtain rfl := (validate_eq_ok_iff.mp accepted_base).2
      rcases bind_eq_error_iff.mp refused with refused | ⟨_, -, ⟨⟩⟩
      exact ⟨accepted_base, refused⟩
    · exact ⟨_, accepted_base, bind_eq_error_iff.mpr (.inl refused)⟩
  · obtain rfl := layer.unique (isFileLayer_none unnamed)
    exact validate_default

theorem ofEnvironment_accepts_renamed :
    let lookup := namingFile "c.toml" .sourceFile "other.cc"
    let w := settingsWorkspace .toml [(.headerFile, "other.h")]
    FileIsReadable lookup w.store ∧
    ∃ file base merged, IsFileLayer lookup w.store file ∧ base = default.overlay file ∧
      merged = base.overlay (override? lookup) ∧
      ((∃ r, ((ofEnvironment lookup : Run (Settings × Origin)) w).1 = .ok r) ↔
        base.validate = .ok base ∧ merged.validate = .ok merged) := by
  intro lookup w
  have ending : Format.ofPath? "c.toml" = some .toml := by decide +kernel
  have readable : FileIsReadable lookup w.store :=
    fileIsReadable_written rfl ending (by decide) (read_settingsWorkspace _ _)
  obtain ⟨file, base, merged, layer, below, above, accepted, -⟩ := ofEnvironment_accepts readable
  exact ⟨readable, file, base, merged, layer, below, above, accepted⟩

/-- A source that is given the name of the header is refused, though a variable renames it. -/
theorem file_refused_under_override :
    let lookup := namingFile "c.toml" .sourceFile "other.cc"
    let w := settingsWorkspace .toml [(.sourceFile, "classifier.h")]
    let merged := { default with sourceFile := "other.cc" }
    FileIsReadable lookup w.store ∧
    (∃ file, IsFileLayer lookup w.store file ∧
      (default.overlay file).overlay (override? lookup) = merged) ∧
    merged.validate = .ok merged ∧
    ((ofEnvironment lookup : Run (Settings × Origin)) w).1 =
      .error (.invalidParameter "source_file" "classifier.h" "must differ from header_file") := by
  intro lookup w merged
  have ending : Format.ofPath? "c.toml" = some .toml := by decide +kernel
  have read := read_settingsWorkspace .toml [(.sourceFile, "classifier.h")]
  refine ⟨fileIsReadable_written rfl ending (by decide) read,
    ⟨_, isFileLayer_written rfl ending (by decide) read, rfl⟩, ?_, ?_⟩
  · decide +kernel
  · decide +kernel

end StumpCompiler.Settings
