import StumpCompiler.Proofs.Cpp.Lines
import StumpCompiler.Proofs.Generation
import StumpCompiler.Proofs.Trial

/-! What a run that fails leaves in a store. Nothing is touched before the model has been read; after
that, directories on the way to the output directory may be new, and the artifacts may have been
written, the header completely before the source is begun. -/

namespace StumpCompiler.Generation

open Host (store)

variable {s : Settings} {before between after : Store}

/-- `after` is `before` but for directories that are new on the way to the output directory and for
what the files of the artifacts hold. -/
structure Changes (s : Settings) (before after : Store) : Prop where
  workingDirectory : after.workingDirectory = before.workingDirectory
  place : ∀ q, after.find? q = before.find? q ∨
    (before.find? q = none ∧ after.find? q = some .directory ∧ before.IsOnWay s.outputDir q) ∨
      ((∃ a : Artifact, q = before.place (a.path s)) ∧ before.IsWritable q ∧
        ∃ bytes, after.find? q = some (.file bytes))

theorem Changes.refl (s : Settings) (before : Store) : Changes s before before :=
  ⟨rfl, fun _ => .inl rfl⟩

theorem changes_of_grows (h : before.Grows (before.IsOnWay s.outputDir) after) :
    Changes s before after := by
  refine ⟨h.workingDirectory, fun q => ?_⟩
  rcases there : before.find? q with _ | e
  · by_cases free : after.find? q = none
    · exact .inl free
    · obtain ⟨directory, way⟩ := h.made q there free
      exact .inr (.inl ⟨rfl, directory, way⟩)
  · exact .inl (h.kept q e there)

/-- A file can only be written where one could be written before. -/
theorem Changes.isWritable {p : Place} (h : Changes s before between)
    (writable : between.IsWritable p) : before.IsWritable p := by
  rcases h.place p with same | ⟨-, directory, -⟩ | ⟨-, old, -⟩
  · rwa [Store.IsWritable, ← same]
  · rcases writable with free | ⟨bytes, file⟩
    · simp [free] at directory
    · simp [file] at directory
  · exact old

theorem Changes.rewrites (h : Changes s before between) (a : Artifact)
    (step : between.Rewrites (before.place (a.path s)) after) : Changes s before after := by
  refine ⟨step.workingDirectory.trans h.workingDirectory, fun q => ?_⟩
  by_cases here : q = before.place (a.path s)
  · subst here
    rcases step.here with same | ⟨writable, new⟩
    · rw [same]
      exact h.place _
    · exact .inr (.inr ⟨⟨a, rfl⟩, h.isWritable writable, new⟩)
  · rw [step.others q here]
    exact h.place q

theorem Changes.present (h : Changes s before after) (q : Place) (there : before.find? q ≠ none) :
    after.find? q ≠ none := by
  rcases h.place q with same | ⟨free, -⟩ | ⟨-, -, bytes, file⟩
  · rwa [same]
  · exact absurd free there
  · simp [file]

/-- What a run that failed may have done: nothing has disappeared, and if the file of the source is
not what it was, the header has been taken completely. -/
structure Interrupted (s : Settings) (before after : Store) : Prop where
  changes : Changes s before after
  present : ∀ q, before.find? q ≠ none → after.find? q ≠ none
  header_first : ∀ bytes, after.find? (before.place s.sourcePath) = some (.file bytes) →
    before.find? (before.place s.sourcePath) ≠ some (.file bytes) →
      after.HasTaken (before.place s.headerPath) (bytesOf (Cpp.header s))

/-- The source has not been begun. -/
theorem interrupted_of_changes (h : Changes s before after)
    (untouched : ∀ bytes, after.find? (before.place s.sourcePath) = some (.file bytes) →
      before.find? (before.place s.sourcePath) = some (.file bytes)) : Interrupted s before after :=
  ⟨h, h.present, fun bytes file other => absurd (untouched bytes file) other⟩

theorem file_of_grows {allowed : Place → Prop} {p : Place} {bytes : List UInt8}
    (h : before.Grows allowed after) (file : after.find? p = some (.file bytes)) :
    before.find? p = some (.file bytes) := by
  by_contra other
  exact h.find?_ne (by simp) other file

/-- The place of the source is not that of the header if a file is there. -/
theorem place_ne_of_file {bytes : List UInt8} (names : s.NamesArtifacts)
    (file : after.find? (before.place s.sourcePath) = some (.file bytes)) :
    before.place s.sourcePath ≠ before.place s.headerPath :=
  place_sourcePath_ne names (Store.ne_nil_of_find? (s := after) (by simp [file]))

theorem bytesOf_header_ne_nil (s : Settings) : bytesOf (Cpp.header s) ≠ [] := by
  rw [bytesOf, Cpp.toList_header]
  simp [Cpp.headerLines, Cpp.ended, Text.Utf8.encode, Text.Utf8.encodeChar]

section Steps

variable {σ : Type} [Host (StateM σ)] [Host.OnStore σ] {w w' : σ} {e : Fault} {path : String}
  {m : Model} {bytes : List UInt8} {result : Except Fault Unit}

theorem rewrites_writeFile
    (h : (writeFile path bytes : ExceptT Fault (StateM σ) Unit) w = (result, w')) :
    (store w).Rewrites ((store w).place path) (store w') := by
  obtain ⟨v, eq, same⟩ := writeFile_eq path bytes w
  obtain ⟨-, rfl⟩ := Prod.ext_iff.mp (eq.symm.trans h)
  rw [show store v = _ from same]
  exact Host.OnStore.rewrites_write path bytes w

theorem hasTaken_of_writeFile (filled : bytes ≠ [])
    (h : (writeFile path bytes : ExceptT Fault (StateM σ) Unit) w = (.ok (), w')) :
    (store w').HasTaken ((store w).place path) bytes := by
  obtain ⟨v, eq, same⟩ := writeFile_eq path bytes w
  obtain ⟨ok, rfl⟩ := Prod.ext_iff.mp (eq.symm.trans h)
  rw [show store v = _ from same]
  exact Host.OnStore.takes_write path bytes w (mapError_eq_ok_iff.mp ok) filled

theorem io_of_writeFile
    (h : (writeFile path bytes : ExceptT Fault (StateM σ) Unit) w = (.error e, w')) :
    ∃ cause, e = .io cause := by
  obtain ⟨v, eq, -⟩ := writeFile_eq path bytes w
  obtain ⟨cause, -, rfl⟩ := mapError_eq_error_iff.mp (Prod.ext_iff.mp (eq.symm.trans h)).1
  exact ⟨cause, rfl⟩

/-- Writing both files fails at the header, or at the source behind the whole header. -/
theorem writeFiles_eq_error {text : Artifact → String}
    (h : (Artifact.all.forM fun a => writeFile (a.path s) (bytesOf (text a)) :
      ExceptT Fault (StateM σ) PUnit) w = (.error e, w')) :
    (∃ cause, e = .io cause) ∧
      ((store w).Rewrites ((store w).place s.headerPath) (store w') ∨
        ∃ v : σ, (store w).Rewrites ((store w).place s.headerPath) (store v) ∧
          (bytesOf (text .header) ≠ [] →
            (store v).HasTaken ((store w).place s.headerPath) (bytesOf (text .header))) ∧
          (store v).Rewrites ((store w).place s.sourcePath) (store w')) := by
  rcases Run.bind_eq_error_iff.mp h with header | ⟨_, v, header, h⟩
  · exact ⟨io_of_writeFile header, .inl (rewrites_writeFile header)⟩
  · rcases Run.bind_eq_error_iff.mp h with source | ⟨_, _, _, done⟩
    · have first := rewrites_writeFile header
      have second := rewrites_writeFile source
      rw [Store.place_eq first.workingDirectory] at second
      exact ⟨io_of_writeFile source, .inr ⟨v, first, fun filled => hasTaken_of_writeFile filled header,
        second⟩⟩
    · cases done

/-- Writing artifacts fails with a fault of files: when directories are made, at the header, or at
the source behind the whole header. -/
theorem write_stages (h : (write s m : ExceptT Fault (StateM σ) Report) w = (.error e, w')) :
    (∃ cause, e = .io cause) ∧
      ∃ made : Store, (store w).Grows ((store w).IsOnWay s.outputDir) made ∧
        (store w' = made ∨ made.Rewrites ((store w).place s.headerPath) (store w') ∨
          ∃ between : Store, made.Rewrites ((store w).place s.headerPath) between ∧
            between.HasTaken ((store w).place s.headerPath) (bytesOf (Cpp.header s)) ∧
            between.Rewrites ((store w).place s.sourcePath) (store w')) := by
  obtain ⟨v, rendered, same⟩ := render_eq s m w
  obtain ⟨result, made, ensured, grown⟩ := ensureDirectory_eq s.outputDir v
  rw [show store v = store w from same] at grown
  have place (path : String) : (store made).place path = (store w).place path :=
    Store.place_eq grown.workingDirectory path
  rw [write, Run.lift_bind_eq, rendered] at h
  rcases Run.bind_eq_error_iff.mp h with failed | ⟨_, u, ensured', h⟩
  · obtain ⟨fault, rfl⟩ := Prod.ext_iff.mp (ensured.symm.trans failed)
    obtain ⟨cause, -, rfl⟩ := mapError_eq_error_iff.mp fault
    exact ⟨⟨cause, rfl⟩, store made, grown, .inl rfl⟩
  · obtain ⟨-, rfl⟩ := Prod.ext_iff.mp (ensured.symm.trans ensured')
    rcases Run.bind_eq_error_iff.mp h with files | ⟨_, _, _, done⟩
    · obtain ⟨io, files⟩ := writeFiles_eq_error files
      simp only [place] at files
      refine ⟨io, store made, grown, .inr (files.imp_right ?_)⟩
      rintro ⟨x, header, taken, source⟩
      exact ⟨store x, header, taken (bytesOf_header_ne_nil s), source⟩
    · cases done

theorem interrupted_of_write (names : s.NamesArtifacts)
    (h : (write s m : ExceptT Fault (StateM σ) Report) w = (.error e, w')) :
    Interrupted s (store w) (store w') := by
  obtain ⟨-, made, grown, same | header | ⟨between, header, taken, source⟩⟩ := write_stages h
  · rw [same]
    exact interrupted_of_changes (changes_of_grows grown) fun _ => file_of_grows grown
  · refine interrupted_of_changes ((changes_of_grows grown).rewrites .header header) ?_
    intro bytes file
    rw [header.others _ (place_ne_of_file names file)] at file
    exact file_of_grows grown file
  · have all := ((changes_of_grows grown).rewrites .header header).rewrites .source source
    refine ⟨all, all.present, fun bytes file _ => ?_⟩
    have other := source.others _ (place_ne_of_file names file).symm
    rw [Store.HasTaken, other]
    exact taken

/-- A run that fails has refused its settings, or has not read a model, or has failed to write. -/
theorem run_eq_error (h : (run s path : ExceptT Fault (StateM σ) Report) w = (.error e, w')) :
    (store w' = store w ∧
        (s.validate = .error e ∨ ((readModel path : ExceptT Fault (StateM σ) Model) w).1 = .error e)) ∨
      ∃ m, ((readModel path : ExceptT Fault (StateM σ) Model) w).1 = .ok m ∧ s.check = .ok () ∧
        ∃ v : σ, store v = store w ∧
          (write s m : ExceptT Fault (StateM σ) Report) v = (.error e, w') := by
  rw [run] at h
  rcases Run.bind_eq_error_iff.mp h with refused | ⟨t, v, validated, rest⟩
  · obtain ⟨fault, rfl⟩ := Run.mk_pure_eq_iff.mp refused
    exact .inl ⟨rfl, .inl fault⟩
  · obtain ⟨valid, rfl⟩ := Run.mk_pure_eq_iff.mp validated
    obtain ⟨accepted, rfl⟩ := Settings.validate_eq_ok_iff.mp valid
    have unchanged := store_readModel path v
    rcases Run.bind_eq_error_iff.mp rest with unread | ⟨m, after, read, rest⟩
    · rw [unread] at unchanged ⊢
      exact .inl ⟨unchanged, .inr rfl⟩
    · rw [read] at unchanged ⊢
      have noted := (Host.store_noteAll (modelRecords path m) after).trans unchanged
      exact .inr ⟨m, rfl, accepted, _, noted, rest⟩

/-- A run that fails otherwise than with a fault of files, or because it cannot read its model, has
left the store as it was. However it fails, nothing has disappeared, only directories on the way to
the output directory and the files of the artifacts may be new or other than before, and the source
has not been touched unless the header has been written completely. -/
theorem run_failed (h : (run s path : ExceptT Fault (StateM σ) Report) w = (.error e, w')) :
    ((∀ cause, e ≠ .io cause) ∨ ((readModel path : ExceptT Fault (StateM σ) Model) w).1 = .error e →
        store w' = store w) ∧
      Interrupted s (store w) (store w') := by
  rcases run_eq_error h with ⟨same, -⟩ | ⟨m, read, accepted, v, same, failed⟩
  · refine ⟨fun _ => same, ?_⟩
    rw [same]
    exact interrupted_of_changes (.refl s _) fun _ => id
  · obtain ⟨cause, rfl⟩ := (write_stages failed).1
    have interrupted := interrupted_of_write (Settings.namesArtifacts_of_check accepted) failed
    rw [same] at interrupted
    refine ⟨fun early => ?_, interrupted⟩
    rcases early with other | unread
    · exact absurd rfl (other cause)
    · rw [read] at unread
      contradiction

end Steps

/-- The disk is full when the source is begun. -/
def fullDisk : Trial where
  workspace := smallWorkspace
  mishaps := [none, none, none, none, some (.breakOff 0 .noSpace)]

def missingDirectory : Settings :=
  { Settings.default with outputDir := "out" }

theorem run_fullDisk :
    ∃ t : Trial, (run missingDirectory "m.xml" : ExceptT Fault (StateM Trial) Report) fullDisk =
        (.error (.io .noSpace), t) ∧
      t.workspace.store.find? ["work", "out", "classifier.cc"] = some (.file []) := by
  have stopped : ((run missingDirectory "m.xml" : ExceptT Fault (StateM Trial) Report)
          fullDisk).1 = .error (.io .noSpace) ∧
      ((run missingDirectory "m.xml" : ExceptT Fault (StateM Trial) Report)
          fullDisk).2.workspace.store.find? ["work", "out", "classifier.cc"] =
        some (.file []) := by
    decide +kernel
  rcases ran : (run missingDirectory "m.xml" : ExceptT Fault (StateM Trial) Report) fullDisk with
    ⟨result, t⟩
  rw [ran] at stopped
  obtain ⟨rfl, broken⟩ := stopped
  exact ⟨t, rfl, broken⟩

/-- A directory cannot be read as a model. On the full disk, the missing output directory is made
and the header written, and the source stays empty. -/
theorem run_failed_fullDisk :
    (∃ w' : Workspace, (run smallSettings "gen" : Run Report) smallWorkspace =
        (.error (.io .isDirectory), w') ∧ w'.store = smallWorkspace.store) ∧
      ∃ t : Trial, Interrupted missingDirectory smallWorkspace.store t.workspace.store ∧
        t.workspace.store.find? ["work", "out", "classifier.cc"] = some (.file []) := by
  have unread : ((readModel "gen" : Run Model) smallWorkspace).1 = .error (.io .isDirectory) := by
    decide +kernel
  have stopped : ((run smallSettings "gen" : Run Report) smallWorkspace).1 =
      .error (.io .isDirectory) := by
    decide +kernel
  constructor
  · rcases ran : (run smallSettings "gen" : Run Report) smallWorkspace with ⟨result, w'⟩
    rw [ran] at stopped
    obtain rfl := stopped
    exact ⟨w', rfl, (run_failed ran).1 (.inr unread)⟩
  · obtain ⟨t, ran, broken⟩ := run_fullDisk
    exact ⟨t, (run_failed ran).2, broken⟩

end StumpCompiler.Generation
