import StumpCompiler.Proofs.Agreement
import StumpCompiler.Proofs.ModelFile
import StumpCompiler.Proofs.Writing

/-! Running again changes nothing: the second run finds its output directory, the same model, and in
both artifacts what it is going to write. -/

namespace StumpCompiler.Generation

variable {s : Settings} {m : Model} {path : String} {w w' v : Workspace} {report : Report}

/-! What a run leaves for the next one. -/

/-- Nothing is left to do: the output directory is there, and writing the artifacts changes
nothing. -/
structure IsDone (s : Settings) (m : Model) (store : Store) : Prop where
  directory : s.outputDir = "" ∨ store.has s.outputDir
  written : ∀ a : Artifact, store.write (a.path s) (bytesOf (a.render s m)) = (.ok (), store)

theorem IsDone.outcome_eq {store : Store} (h : IsDone s m store) :
    outcome s m store = (.ok (.ofModel s m), store) := by
  have header : store.write s.headerPath (bytesOf (Cpp.header s)) = (.ok (), store) :=
    h.written .header
  have source : store.write s.sourcePath (bytesOf (Cpp.source m s)) = (.ok (), store) :=
    h.written .source
  simp only [outcome, header, source]

theorem isDone_of_write (names : s.NamesArtifacts)
    (h : (write s m : Run Report) w = (.ok report, w')) : IsDone s m w'.store := by
  obtain ⟨-, made, written, -, header, source⟩ := write_eq_ok h
  have file : written.IsFilePath s.sourcePath := Store.isFilePath_of_write (by rw [source])
  have step := Store.rewrites_write written s.sourcePath (bytesOf (Cpp.source m s))
  rw [source] at step
  constructor
  · obtain ⟨parent, name, aimed, -⟩ := file.aimed
    have aimed := Store.target_of_keepsDirectories step.keepsDirectories aimed
    by_cases empty : s.outputDir = ""
    · exact .inl empty
    · right
      rw [Store.has, Store.resolve_of_target_join names.source empty aimed]
  · intro a
    cases a with
    | header =>
      -- The source is written to another place, so the header is still there.
      have differ := place_sourcePath_ne names (Store.ne_nil_of_find? file.no_directory)
      have keeps : Store.KeepsPath s.headerPath written w'.store :=
        ⟨step.keepsDirectories, step.others _ differ.symm⟩
      exact keeps.write (Store.write_again header)
    | source => exact Store.write_again source

/-- The model file of a run that ends well is read again as it was, unless it is an artifact. -/
theorem readModel_later (h : (run s path : Run Report) w = (.ok report, w'))
    (other : ∀ a : Artifact, w.store.place path ≠ w.store.place (a.path s))
    (same : v.store = w'.store) (read : ((readModel path : Run Model) w).1 = .ok m) :
    ((readModel path : Run Model) v).1 = .ok m := by
  have changes : Changes s w.store w'.store := changes_of_run h
  rw [readModel_eq] at read ⊢
  cases content : w.store.read path with
  | error fault =>
    rw [content] at read
    contradiction
  | ok bytes =>
    have kept := changes.find?_eq (Store.ne_none_of_read content) other
    have keeps : Store.KeepsPath path w.store w'.store := ⟨changes.keepsDirectories, kept⟩
    rw [content] at read
    rw [same, keeps.read content]
    exact read

/-- A run that ended well ends well again, with the same report, on what it has left, and leaves all
of that as it is. Its model must not stand in the place of an artifact. -/
theorem run_again (h : (run s path : Run Report) w = (.ok report, w'))
    (other : ∀ a : Artifact, w.store.place path ≠ w.store.place (a.path s))
    (same : v.store = w'.store) :
    ∃ v', (run s path : Run Report) v = (.ok report, v') ∧ v'.store = w'.store := by
  obtain ⟨accepted, m, read, u, -, written⟩ := run_eq_ok h
  obtain ⟨rfl, -⟩ := write_eq_ok written
  have done := isDone_of_write (Settings.namesArtifacts_of_check accepted) written
  obtain ⟨x, stores, eq⟩ := run_eq_write accepted (readModel_later h other same read)
  rw [← same, ← stores] at done
  obtain ⟨v', again, left⟩ := write_of_has (m := m) done.directory
  rw [done.outcome_eq] at again left
  rw [eq]
  exact ⟨v', again, left.trans (stores.trans same)⟩

/-- Most of the way to the output directory is missing at first. -/
def windingSettings : Settings :=
  { Settings.default with outputDir := "new/../gen/./deep/" }

theorem run_again_winding :
    ∃ report w' v', (run windingSettings "m.xml" : Run Report) smallWorkspace = (.ok report, w') ∧
      (∀ a : Artifact, smallWorkspace.store.place "m.xml" ≠
        smallWorkspace.store.place (a.path windingSettings)) ∧
      w'.store ≠ smallWorkspace.store ∧
      (run windingSettings "m.xml" : Run Report) w' = (.ok report, v') ∧ v'.store = w'.store := by
  have changed : ((run windingSettings "m.xml" : Run Report) smallWorkspace).1 =
        .ok ⟨"new/../gen/./deep/classifier.h", "new/../gen/./deep/classifier.cc", 1, 1, 1⟩ ∧
      ((run windingSettings "m.xml" : Run Report) smallWorkspace).2.store ≠
        smallWorkspace.store := by
    decide +kernel
  have other : ∀ a : Artifact, smallWorkspace.store.place "m.xml" ≠
      smallWorkspace.store.place (a.path windingSettings) := by
    rintro (_ | _) <;> decide +kernel
  rcases ran : (run windingSettings "m.xml" : Run Report) smallWorkspace with ⟨result, w'⟩
  rw [ran] at changed
  obtain ⟨rfl, changed⟩ := changed
  obtain ⟨v', again, left⟩ := run_again ran other rfl
  exact ⟨_, w', v', rfl, other, changed, again, left⟩

end StumpCompiler.Generation
