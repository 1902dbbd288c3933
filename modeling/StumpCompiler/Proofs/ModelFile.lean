import StumpCompiler.Proofs.Encoding
import StumpCompiler.Proofs.Failure
import StumpCompiler.Proofs.Store.Later
import StumpCompiler.Proofs.Xml.Front

/-! What becomes of the file of a model. A run does not look whether its model stands where an
artifact goes: there the model is replaced like any other file, and what replaces it is no model.
Anywhere else it stays as it is, however the run ends. -/

namespace StumpCompiler.Generation

open Host (store)

variable {s : Settings} {m : Model} {path : String} {bytes : List UInt8} {before after : Store}

/-! Both artifacts start with a directive, and no document does. -/

theorem exists_render_eq (a : Artifact) (s : Settings) (m : Model) :
    ∃ cs, (a.render s m).toList = '#' :: cs := by
  cases a with
  | header =>
    rw [Artifact.render, Cpp.toList_header]
    simp [Cpp.headerLines, Cpp.ended]
  | source =>
    rw [Artifact.render, Cpp.toList_source]
    simp [Cpp.sourceLines, Cpp.headLines, Cpp.ended]

theorem exists_bytesOf_render_eq (a : Artifact) (s : Settings) (m : Model) :
    ∃ rest, bytesOf (a.render s m) = 0x23 :: rest := by
  obtain ⟨cs, eq⟩ := exists_render_eq a s m
  rw [bytesOf, eq]
  exact ⟨Text.Utf8.encode cs, rfl⟩

/-- An artifact is no model. -/
theorem ofBytes_render (a : Artifact) (s : Settings) (m : Model) :
    Reader.ofBytes (bytesOf (a.render s m)) = .error (.malformed (.unknownToken .start)) := by
  obtain ⟨rest, eq⟩ := exists_bytesOf_render_eq a s m
  have undeclared : Encoding.declared? (bytesOf (a.render s m)) = none := by
    apply Encoding.declared?_of_not_begins
    rw [eq]
    simp [Encoding.unmarked, Encoding.byteOrderMark, Encoding.ascii]
  have text : Encoding.decode (bytesOf (a.render s m)) = .ok (a.render s m).toList := by
    rw [Encoding.decode_of_not_namesLatin1 (by simp [undeclared]), bytesOf,
      Text.Utf8.decode_encode]
    rfl
  obtain ⟨cs, first⟩ := exists_render_eq a s m
  have refused : Xml.parse ('#' :: cs) = .error (.unknownToken .start) :=
    Xml.parse_eq_unknownToken (by decide) (by decide) (by decide)
  rw [Reader.ofBytes, text, first]
  simp only [Except.mapError, bind, Except.bind, Reader.ofText, refused]

/-! What a run may change. -/

theorem Changes.keepsDirectories (h : Changes s before after) :
    Store.KeepsDirectories before after := by
  refine ⟨h.workingDirectory, fun q found => ?_⟩
  rcases h.place q with same | ⟨free, -⟩ | ⟨-, free | ⟨old, file⟩, -⟩
  · exact same.trans found
  · simp [found] at free
  · simp [found] at free
  · simp [found] at file

/-- What is there and is no artifact stays there. -/
theorem Changes.find?_eq (h : Changes s before after) {q : Place} (there : before.find? q ≠ none)
    (other : ∀ a : Artifact, q ≠ before.place (a.path s)) : after.find? q = before.find? q := by
  rcases h.place q with same | ⟨free, -⟩ | ⟨⟨a, artifact⟩, -⟩
  · exact same
  · exact absurd free there
  · exact absurd artifact (other a)

section Steps

variable {σ : Type} [Host (StateM σ)] [Host.OnStore σ] {w w' : σ} {report : Report}
  {result : Except Fault Report}

/-- Writing that ends well makes directories, and then writes the header and the source
completely. -/
theorem write_parts (h : (write s m : ExceptT Fault (StateM σ) Report) w = (.ok report, w')) :
    ∃ made between : Store, (store w).Grows ((store w).IsOnWay s.outputDir) made ∧
      made.Rewrites ((store w).place s.headerPath) between ∧
      between.HasTaken ((store w).place s.headerPath) (bytesOf (Cpp.header s)) ∧
      between.Rewrites ((store w).place s.sourcePath) (store w') ∧
      (store w').HasTaken ((store w).place s.sourcePath) (bytesOf (Cpp.source m s)) := by
  obtain ⟨v, rendered, same⟩ := render_eq s m w
  rw [write, Run.lift_bind_eq, rendered] at h
  obtain ⟨_, made, ensured, h⟩ := Run.bind_eq_ok_iff.mp h
  obtain ⟨_, last, files, done⟩ := Run.bind_eq_ok_iff.mp h
  obtain ⟨_, between, header, h⟩ := Run.bind_eq_ok_iff.mp files
  obtain ⟨_, both, source, h⟩ := Run.bind_eq_ok_iff.mp h
  obtain rfl : last = both := (Prod.ext_iff.mp h).2.symm
  obtain rfl : w' = last := (Prod.ext_iff.mp done).2.symm
  obtain ⟨_, u, eq, grown⟩ := ensureDirectory_eq s.outputDir v
  obtain rfl : u = made := (Prod.ext_iff.mp (eq.symm.trans ensured)).2
  rw [show store v = store w from same] at grown
  have place (path : String) : (store u).place path = (store w).place path :=
    Store.place_eq grown.workingDirectory path
  have filled (a : Artifact) : bytesOf (a.render s m) ≠ [] := by
    obtain ⟨rest, eq⟩ := exists_bytesOf_render_eq a s m
    simp [eq]
  have first := rewrites_writeFile header
  have first_taken := hasTaken_of_writeFile (filled .header) header
  have second := rewrites_writeFile source
  have second_taken := hasTaken_of_writeFile (filled .source) source
  rw [Store.place_eq first.workingDirectory] at second second_taken
  rw [place] at first first_taken second second_taken
  exact ⟨store u, store between, grown, first, first_taken, second, second_taken⟩

theorem changes_of_run
    (h : (run s path : ExceptT Fault (StateM σ) Report) w = (result, w')) :
    Changes s (store w) (store w') := by
  cases result with
  | error e => exact (run_failed h).2.changes
  | ok report =>
    obtain ⟨-, m, -, v, same, written⟩ := run_parts h
    obtain ⟨made, between, grown, header, -, source, -⟩ := write_parts written
    rw [same] at grown header source
    exact ((changes_of_grows grown).rewrites .header header).rewrites .source source

theorem ne_nil_of_hasTaken {p : Place} (h : before.HasTaken p bytes) : p ≠ [] := by
  apply Store.ne_nil_of_find? (s := before)
  rcases h with file | device
  · simp [file]
  · simp [device]

/-- A run that ends well has written the artifacts of the model that it has read. -/
theorem hasTaken_of_run (h : (run s path : ExceptT Fault (StateM σ) Report) w = (.ok report, w')) :
    ∃ m, ((readModel path : ExceptT Fault (StateM σ) Model) w).1 = .ok m ∧
      ∀ a : Artifact, (store w').HasTaken ((store w).place (a.path s)) (bytesOf (a.render s m)) := by
  obtain ⟨accepted, m, read, v, same, written⟩ := run_parts h
  obtain ⟨made, between, -, -, header, source, last⟩ := write_parts written
  rw [same] at header source last
  have names := Settings.namesArtifacts_of_check accepted
  have differ := place_sourcePath_ne names (ne_nil_of_hasTaken last)
  refine ⟨m, read, fun a => ?_⟩
  cases a with
  | header =>
    have kept := source.others _ differ.symm
    rw [Store.HasTaken] at header ⊢
    rw [← kept] at header
    exact header
  | source => exact last

/-- However a run ends, the file of its model keeps its content, unless it stands in the place of an
artifact. There it keeps it as long as nothing is written; a run that ends well has replaced it by
the artifact, which is no model. -/
theorem run_spares_model
    (h : (run s path : ExceptT Fault (StateM σ) Report) w = (result, w'))
    (there : (store w).HoldsFile path bytes) :
    ((∀ a : Artifact, (store w).place path ≠ (store w).place (a.path s)) →
        (store w').HoldsFile path bytes) ∧
      (∀ e, result = .error e → (∀ cause, e ≠ .io cause) ∨
          ((readModel path : ExceptT Fault (StateM σ) Model) w).1 = .error e →
        (store w').HoldsFile path bytes) ∧
      ∀ (a : Artifact) report, result = .ok report →
          (store w).place path = (store w).place (a.path s) →
        ∃ m, ((readModel path : ExceptT Fault (StateM σ) Model) w).1 = .ok m ∧
          (store w').HoldsFile path (bytesOf (a.render s m)) ∧
          Reader.ofBytes (bytesOf (a.render s m)) = .error (.malformed (.unknownToken .start)) := by
  have changes := changes_of_run h
  have file : (store w).find? ((store w).place path) = some (.file bytes) :=
    (Store.holdsFile_iff.mp there).2
  refine ⟨fun other => ?_, ?_, ?_⟩
  · apply there.later changes.keepsDirectories
    rw [changes.find?_eq (by simp [file]) other, file]
  · rintro e rfl early
    rw [(run_failed h).1 early]
    exact there
  · rintro a report rfl same
    obtain ⟨m, read, taken⟩ := hasTaken_of_run h
    refine ⟨m, read, ?_, ofBytes_render a s m⟩
    apply there.later changes.keepsDirectories
    rcases taken a with written | device
    · rw [same, written]
    · rw [← same] at device
      rcases changes.place ((store w).place path) with kept | ⟨free, -⟩ | ⟨-, -, new, written⟩
      · simp [kept, file] at device
      · simp [free] at file
      · simp [written] at device

end Steps

/-- On the full disk the run fails behind the header, and its model is still there. -/
theorem run_spares_model_fullDisk :
    (store fullDisk).HoldsFile "m.xml" (bytesOf smallDocument) ∧
      ∃ t : Trial, (run missingDirectory "m.xml" : ExceptT Fault (StateM Trial) Report) fullDisk =
          (.error (.io .noSpace), t) ∧
        (store t).HoldsFile "m.xml" (bytesOf smallDocument) := by
  have there : (store fullDisk).HoldsFile "m.xml" (bytesOf smallDocument) := rfl
  have other : ∀ a : Artifact, (store fullDisk).place "m.xml" ≠
      (store fullDisk).place (a.path missingDirectory) := by
    rintro (_ | _) <;> decide
  obtain ⟨t, ran, -⟩ := run_fullDisk
  exact ⟨there, t, ran, (run_spares_model ran there).1 other⟩

/-- The model stands where the header goes. -/
def misplacedModel : Workspace where
  store := {
    entries := [(["work"], .directory), (["work", "classifier.h"], .file (bytesOf smallDocument))]
    workingDirectory := ["work"] }
  journal := []

theorem misplaced_model_is_lost :
    Settings.default.check = .ok () ∧
      misplacedModel.store.HoldsFile "classifier.h" (bytesOf smallDocument) ∧
      ∃ report w', (run .default "classifier.h" : Run Report) misplacedModel = (.ok report, w') ∧
        ¬w'.store.HoldsFile "classifier.h" (bytesOf smallDocument) := by
  have lost : ((run .default "classifier.h" : Run Report) misplacedModel).1 =
        .ok ⟨"./classifier.h", "./classifier.cc", 1, 1, 1⟩ ∧
      ¬((run .default "classifier.h" : Run Report) misplacedModel).2.store.HoldsFile
        "classifier.h" (bytesOf smallDocument) := by
    decide +kernel
  rcases ran : (run .default "classifier.h" : Run Report) misplacedModel with ⟨result, w'⟩
  rw [ran] at lost
  obtain ⟨rfl, lost⟩ := lost
  exact ⟨by decide +kernel, rfl, _, w', rfl, lost⟩

end StumpCompiler.Generation
