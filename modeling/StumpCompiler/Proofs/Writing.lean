import StumpCompiler.Proofs.Agreement

/-! Writing artifacts where the output directory is there already, or has been made: only the two
files are written, and how they are written is all that matters. -/

namespace StumpCompiler.Generation

variable {s : Settings} {m : Model} {path : String} {w : Workspace} {store : Store}

theorem ensureDirectory_of_has (there : path = "" ∨ w.store.has path) :
    (ensureDirectory path : Run Unit) w = (.ok (), w) := by
  have looked : (Host.has path : StateM Workspace Bool) w = (w.store.has path, w) := rfl
  rw [ensureDirectory, Run.lift_bind_eq, looked, if_pos]
  · rfl
  · simpa using there

theorem writeFile_eq_write (path : String) (bytes : List UInt8) (w : Workspace) :
    ∃ v, (writeFile path bytes : Run Unit) w = ((w.store.write path bytes).1.mapError .io, v) ∧
      v.store = (w.store.write path bytes).2 :=
  writeFile_eq path bytes w

/-- Both files, one after the other. -/
def writeBoth (s : Settings) (m : Model) : Run Report := do
  writeFile s.headerPath (bytesOf (Cpp.header s))
  writeFile s.sourcePath (bytesOf (Cpp.source m s))
  return .ofModel s m

/-- What becomes of both files in a store. -/
def outcome (s : Settings) (m : Model) (store : Store) : Except Fault Report × Store :=
  match store.write s.headerPath (bytesOf (Cpp.header s)) with
  | (.error fault, after) => (.error (.io fault), after)
  | (.ok (), written) =>
    match written.write s.sourcePath (bytesOf (Cpp.source m s)) with
    | (.error fault, after) => (.error (.io fault), after)
    | (.ok (), after) => (.ok (.ofModel s m), after)

theorem outcome_result (s : Settings) (m : Model) (store : Store) : (outcome s m store).1 = (do
    (store.write s.headerPath (bytesOf (Cpp.header s))).1.mapError .io
    ((store.write s.headerPath (bytesOf (Cpp.header s))).2.write s.sourcePath
      (bytesOf (Cpp.source m s))).1.mapError .io
    return .ofModel s m) := by
  rcases first : store.write s.headerPath (bytesOf (Cpp.header s)) with ⟨fault | ⟨⟩, written⟩
  · simp only [outcome, first]
    rfl
  · rcases second : written.write s.sourcePath (bytesOf (Cpp.source m s)) with ⟨fault | ⟨⟩, after⟩
    all_goals
      simp only [outcome, first, second]
      rfl

theorem outcome_eq_ok_iff : (outcome s m store).1 = .ok (.ofModel s m) ↔
    (store.write s.headerPath (bytesOf (Cpp.header s))).1 = .ok () ∧
      ((store.write s.headerPath (bytesOf (Cpp.header s))).2.write s.sourcePath
        (bytesOf (Cpp.source m s))).1 = .ok () := by
  rw [outcome_result]
  simp [bind_eq_ok_iff, mapError_eq_ok_iff, Unique.exists_iff, pure, Except.pure]

theorem writeBoth_eq (s : Settings) (m : Model) (w : Workspace) :
    ∃ v, writeBoth s m w = ((outcome s m w.store).1, v) ∧ v.store = (outcome s m w.store).2 := by
  obtain ⟨x, first, same⟩ := writeFile_eq_write s.headerPath (bytesOf (Cpp.header s)) w
  rw [writeBoth, Run.bind_eq, first]
  rcases header : w.store.write s.headerPath (bytesOf (Cpp.header s)) with ⟨fault | ⟨⟩, written⟩
  · rw [header] at same
    simp only [outcome, header]
    exact ⟨x, rfl, same⟩
  · rw [header] at same
    obtain ⟨y, second, same'⟩ := writeFile_eq_write s.sourcePath (bytesOf (Cpp.source m s)) x
    rw [same] at second same'
    change ∃ v, ((writeFile s.sourcePath (bytesOf (Cpp.source m s)) : Run Unit) >>= _) x = _ ∧ _
    rw [Run.bind_eq, second]
    rcases source : written.write s.sourcePath (bytesOf (Cpp.source m s)) with ⟨fault | ⟨⟩, after⟩
    all_goals
      rw [source] at same'
      simp only [outcome, header, source]
      exact ⟨y, rfl, same'⟩

/-- Where the output directory is there or can be made, the files are written then. -/
theorem write_of_ensured {made : Workspace}
    (ensured : (ensureDirectory s.outputDir : Run Unit) w = (.ok (), made)) :
    ∃ v, (write s m : Run Report) w = ((outcome s m made.store).1, v) ∧
      v.store = (outcome s m made.store).2 := by
  obtain ⟨u, rendered, same⟩ := render_eq s m w
  obtain ⟨result, stores⟩ := ensureDirectory_ignoresJournal s.outputDir u w same
  rcases ensured' : (ensureDirectory s.outputDir : Run Unit) u with ⟨result', made'⟩
  rw [ensured, ensured'] at result stores
  obtain rfl : result' = .ok () := result
  have both : (write s m : Run Report) w = writeBoth s m made' := by
    rw [write, Run.lift_bind_eq, rendered, Run.bind_eq, ensured']
    simp only [Artifact.all, List.forM_eq_forM, List.forM_cons, List.forM_nil, bind_assoc,
      pure_bind]
    rfl
  rw [both, ← show made'.store = made.store from stores]
  exact writeBoth_eq s m made'

/-- If the output directory is there, only the files are written. -/
theorem write_of_has (there : s.outputDir = "" ∨ w.store.has s.outputDir) :
    ∃ v, (write s m : Run Report) w = ((outcome s m w.store).1, v) ∧
      v.store = (outcome s m w.store).2 :=
  write_of_ensured (ensureDirectory_of_has there)

end StumpCompiler.Generation
