import StumpCompiler.Proofs.Host
import StumpCompiler.Proofs.Settings
import StumpCompiler.Proofs.Workspace

/-! What a run that ends well leaves in a store: both artifacts, the directories on the way to them,
and everything else as it was. -/

namespace StumpCompiler.Generation

open Host (store)

/-! The parts of a run, on any host that has a store. -/

section Parts

variable {σ : Type} [Host (StateM σ)] [Host.OnStore σ]

theorem store_renderNext (s : Settings) (m : Model) (done : Rendered) (a : Artifact) (w : σ) :
    store ((renderNext s m done a : StateM σ Rendered) w).2 = store w :=
  (Host.OnStore.store_note _ _).trans (Host.store_noteAll (a.renderRecords s m) w)

theorem render_eq (s : Settings) (m : Model) (w : σ) :
    ∃ v, (render s m : StateM σ Rendered) w = (⟨Cpp.header s, Cpp.source m s⟩, v) ∧
      store v = store w :=
  have header := store_renderNext s m .empty .header w
  have source := store_renderNext s m (Rendered.empty.set .header (Cpp.header s)) .source
    ((renderNext s m .empty .header : StateM σ Rendered) w).2
  ⟨_, rfl, source.trans header⟩

/-- A step on files, whose fault is one of the run, and then a record. -/
theorem step_note_eq (x : StateM σ (Except IoFault Unit)) (r : Record) (w : σ) :
    ∃ v, (do
        let result ← (liftM x : ExceptT Fault (StateM σ) (Except IoFault Unit))
        ExceptT.mk (pure (result.mapError Fault.io))
        (liftM (Host.note r : StateM σ Unit) : ExceptT Fault (StateM σ) Unit)) w =
        ((x w).1.mapError .io, v) ∧ store v = store (x w).2 := by
  rw [Run.lift_bind_eq, Run.bind_eq]
  rcases x w with ⟨_ | _, v⟩
  · exact ⟨v, rfl, rfl⟩
  · exact ⟨_, rfl, Host.OnStore.store_note r v⟩

theorem ensureDirectory_eq (path : String) (w : σ) :
    ∃ (result : Except IoFault Unit) (v : σ),
      (ensureDirectory path : ExceptT Fault (StateM σ) Unit) w = (result.mapError .io, v) ∧
        (store w).Grows ((store w).IsOnWay path) (store v) := by
  rw [ensureDirectory, Run.lift_bind_eq]
  have looked := Host.OnStore.store_has path w
  split
  · exact ⟨.ok (), _, rfl, looked ▸ .refl _ _⟩
  · obtain ⟨v, eq, same⟩ := step_note_eq (Host.makeDirectories path)
      ⟨.debug, writerSource, "created output directory " ++ path⟩
      ((Host.has path : StateM σ Bool) w).2
    refine ⟨_, v, eq, ?_⟩
    rw [same, ← looked]
    exact Host.grows_makeDirectories _ path

theorem writeFile_eq (path : String) (bytes : List UInt8) (w : σ) :
    ∃ v, (writeFile path bytes : ExceptT Fault (StateM σ) Unit) w =
        (((Host.write path bytes : StateM σ (Except IoFault Unit)) w).1.mapError .io, v) ∧
      store v = store ((Host.write path bytes : StateM σ (Except IoFault Unit)) w).2 :=
  step_note_eq _ _ w

theorem store_readModel (path : String) (w : σ) :
    store ((readModel path : ExceptT Fault (StateM σ) Model) w).2 = store w := by
  have looked := Host.OnStore.store_read path w
  rw [readModel, Run.lift_bind_eq]
  rcases read : (Host.read path : StateM σ (Except IoFault (List UInt8))) w with ⟨_ | bytes, v⟩ <;>
    rw [read] at looked
  · exact looked
  · exact (Host.store_noteAll (Reader.byteRecords path bytes) v).trans looked

/-- A run that ends well has accepted settings, reads a model and writes its artifacts. -/
theorem run_parts {s : Settings} {path : String} {report : Report} {w w' : σ}
    (h : (run s path : ExceptT Fault (StateM σ) Report) w = (.ok report, w')) :
    s.check = .ok () ∧ ∃ m, ((readModel path : ExceptT Fault (StateM σ) Model) w).1 = .ok m ∧
      ∃ v : σ, store v = store w ∧
        (write s m : ExceptT Fault (StateM σ) Report) v = (.ok report, w') := by
  rw [run] at h
  obtain ⟨t, v, validated, rest⟩ := Run.bind_eq_ok_iff.mp h
  obtain ⟨valid, rfl⟩ := Run.mk_pure_eq_iff.mp validated
  obtain ⟨accepted, rfl⟩ := Settings.validate_eq_ok_iff.mp valid
  obtain ⟨m, after, read, rest⟩ := Run.bind_eq_ok_iff.mp rest
  rw [Run.lift_bind_eq] at rest
  have unchanged := store_readModel path v
  rw [read] at unchanged
  exact ⟨accepted, m, by rw [read], _, (Host.store_noteAll _ after).trans unchanged, rest⟩

end Parts

/-! A run that ends well. -/

variable {s : Settings} {m : Model} {path : String} {w w' : Workspace} {bytes : List UInt8}

theorem writeFile_eq_ok (h : (writeFile path bytes : Run Unit) w = (.ok (), w')) :
    w.store.write path bytes = (.ok (), w'.store) := by
  obtain ⟨v, eq, same⟩ := writeFile_eq path bytes w
  rw [eq] at h
  obtain ⟨ok, rfl⟩ := Prod.ext_iff.mp h
  exact Prod.ext (mapError_eq_ok_iff.mp ok) same.symm

/-- The store is first made ready in `made`, then has one artifact more in `written`, then both. -/
theorem write_eq_ok {report : Report} (h : (write s m : Run Report) w = (.ok report, w')) :
    report = .ofModel s m ∧
      ∃ made written : Store, w.store.Grows (w.store.IsOnWay s.outputDir) made ∧
        made.write s.headerPath (bytesOf (Cpp.header s)) = (.ok (), written) ∧
        written.write s.sourcePath (bytesOf (Cpp.source m s)) = (.ok (), w'.store) := by
  obtain ⟨v, rendered, same⟩ := render_eq s m w
  rw [write, Run.lift_bind_eq, rendered] at h
  obtain ⟨_, made, ensured, h⟩ := Run.bind_eq_ok_iff.mp h
  obtain ⟨_, last, files, done⟩ := Run.bind_eq_ok_iff.mp h
  obtain ⟨_, written, header, h⟩ := Run.bind_eq_ok_iff.mp files
  obtain ⟨_, both, source, h⟩ := Run.bind_eq_ok_iff.mp h
  obtain rfl : last = both := (Prod.ext_iff.mp h).2.symm
  obtain rfl : w' = last := (Prod.ext_iff.mp done).2.symm
  obtain ⟨_, u, eq, grown⟩ := ensureDirectory_eq s.outputDir v
  rw [eq] at ensured
  obtain rfl : u = made := (Prod.ext_iff.mp ensured).2
  rw [show store v = w.store from same] at grown
  exact ⟨(Except.ok.inj (Prod.ext_iff.mp done).1).symm, u.store, written.store, grown,
    writeFile_eq_ok header, writeFile_eq_ok source⟩

theorem run_eq_ok {report : Report} (h : (run s path : Run Report) w = (.ok report, w')) :
    s.check = .ok () ∧ ∃ m, ((readModel path : Run Model) w).1 = .ok m ∧
      ∃ v : Workspace, v.store = w.store ∧ (write s m : Run Report) v = (.ok report, w') :=
  run_parts h

/-- `after` holds both artifacts of the model, and otherwise what `before` does, with directories
added on the way to the output directory. -/
structure Wrote (s : Settings) (m : Model) (before after : Store) : Prop where
  holds : ∀ a : Artifact,
    after.find? (before.place (a.path s)) = some (.file (bytesOf (a.render s m)))
  reads : ∀ a : Artifact, after.read (a.path s) = .ok (bytesOf (a.render s m))
  differ : before.place s.headerPath ≠ before.place s.sourcePath
  kept : ∀ q e, before.find? q = some e → (∀ a : Artifact, q ≠ before.place (a.path s)) →
    after.find? q = some e
  present : ∀ q, before.find? q ≠ none → after.find? q ≠ none
  made : ∀ q, before.find? q = none → after.find? q ≠ none →
    (∀ a : Artifact, q ≠ before.place (a.path s)) →
      after.find? q = some .directory ∧ before.IsOnWay s.outputDir q

/-- No artifact goes to a device. -/
def SparesDevices (s : Settings) (store : Store) : Prop :=
  ∀ a : Artifact, store.find? (store.place (a.path s)) ≠ some .nullDevice ∧
    store.find? (store.place (a.path s)) ≠ some .fullDevice

/-- The names of the artifacts differ, so their places do, whatever the output directory is. -/
theorem place_sourcePath_ne {store : Store} (names : s.NamesArtifacts)
    (below : store.place s.sourcePath ≠ []) : store.place s.sourcePath ≠ store.place s.headerPath := by
  rw [Settings.sourcePath, Store.place_join _ _ names.source] at below ⊢
  rw [Settings.headerPath, Store.place_join _ _ names.header]
  exact fun same => names.differ (Store.eq_of_step_eq same below).symm

/-- `after` holds both artifacts, and otherwise what `made` does. -/
structure WroteBoth (s : Settings) (m : Model) (made after : Store) : Prop where
  holds : ∀ a : Artifact,
    after.find? (made.place (a.path s)) = some (.file (bytesOf (a.render s m)))
  reads : ∀ a : Artifact, after.read (a.path s) = .ok (bytesOf (a.render s m))
  differ : made.place s.headerPath ≠ made.place s.sourcePath
  others : ∀ q, (∀ a : Artifact, q ≠ made.place (a.path s)) → after.find? q = made.find? q

theorem wroteBoth_of_differ {made written after : Store} (spares : SparesDevices s made)
    (differ : made.place s.sourcePath ≠ made.place s.headerPath)
    (header : made.write s.headerPath (bytesOf (Cpp.header s)) = (.ok (), written))
    (source : written.write s.sourcePath (bytesOf (Cpp.source m s)) = (.ok (), after)) :
    WroteBoth s m made after := by
  have first : Store.IsWritten s.headerPath (bytesOf (Cpp.header s)) made written :=
    Store.write_eq_ok (spares .header).1 (spares .header).2 header
  have place : written.place s.sourcePath = made.place s.sourcePath :=
    Store.place_eq first.workingDirectory _
  have spared : written.find? (written.place s.sourcePath) ≠ some .nullDevice ∧
      written.find? (written.place s.sourcePath) ≠ some .fullDevice := by
    rw [place, first.find?, if_neg differ]
    exact spares .source
  have second := Store.write_eq_ok spared.1 spared.2 source
  have header_holds : after.find? (made.place s.headerPath) =
      some (.file (bytesOf (Cpp.header s))) := by
    rw [second.find?, place, if_neg (Ne.symm differ), first.find?, if_pos rfl]
  have source_holds : after.find? (written.place s.sourcePath) =
      some (.file (bytesOf (Cpp.source m s))) := by
    rw [second.find?, if_pos rfl]
  refine ⟨?_, ?_, Ne.symm differ, fun q other => ?_⟩
  · intro a
    cases a with
    | header => exact header_holds
    | source => exact place ▸ source_holds
  · intro a
    cases a with
    | header => exact first.read second.keepsDirectories header_holds
    | source => exact second.read (.refl after) source_holds
  · have not_source : q ≠ written.place s.sourcePath := place.symm ▸ other .source
    have not_header : q ≠ made.place s.headerPath := other .header
    rw [second.find?, if_neg not_source, first.find?, if_neg not_header]

/-- Where accepted settings let the header be written, the source has another place. -/
theorem place_ne_of_write {made written : Store} (names : s.NamesArtifacts)
    (spares : SparesDevices s made)
    (header : made.write s.headerPath (bytesOf (Cpp.header s)) = (.ok (), written)) :
    made.place s.sourcePath ≠ made.place s.headerPath := by
  have first := Store.write_eq_ok (spares .header).1 (spares .header).2 header
  intro same
  have below : made.place s.sourcePath ≠ [] := by
    rw [same]
    exact Store.ne_nil_of_find? first.file.no_directory
  exact place_sourcePath_ne names below same

theorem wrote_of_wroteBoth {before made after : Store}
    (grown : before.Grows (before.IsOnWay s.outputDir) made) (h : WroteBoth s m made after) :
    Wrote s m before after := by
  have place (path : String) : made.place path = before.place path :=
    Store.place_eq grown.workingDirectory path
  obtain ⟨holds, reads, differ, others⟩ := h
  simp only [place] at holds differ others
  refine ⟨holds, reads, differ, ?_, ?_, ?_⟩
  · intro q e there other
    rw [others q other]
    exact grown.kept q e there
  · intro q there
    obtain ⟨e, there⟩ := Option.ne_none_iff_exists'.mp there
    by_cases artifact : ∃ a : Artifact, q = before.place (a.path s)
    · obtain ⟨a, rfl⟩ := artifact
      simp [holds a]
    · rw [others q fun a same => artifact ⟨a, same⟩, grown.kept q e there]
      simp
  · intro q free taken other
    rw [others q other] at taken ⊢
    exact grown.made q free taken

theorem sparesDevices_of_grows {allowed : Place → Prop} {before made : Store}
    (grown : before.Grows allowed made) (spares : SparesDevices s before) :
    SparesDevices s made := by
  intro a
  rw [Store.place_eq grown.workingDirectory]
  exact ⟨grown.find?_ne (by simp) (spares a).1, grown.find?_ne (by simp) (spares a).2⟩

/-- A run that ends well leaves both artifacts of the model that its file held before, and nothing
else but directories for them; its report gives their paths and the numbers of the model. -/
theorem run_wrote {report : Report} (h : (run s path : Run Report) w = (.ok report, w'))
    (spares : SparesDevices s w.store) :
    ∃ m, ((readModel path : Run Model) w).1 = .ok m ∧ Wrote s m w.store w'.store ∧
      report = ⟨s.headerPath, s.sourcePath, m.classes.ids.length, m.hypotheses.length,
        m.classes.ids.length * m.hypotheses.length⟩ := by
  obtain ⟨accepted, m, read, v, same, written⟩ := run_eq_ok h
  obtain ⟨rfl, made, first, grown, header, source⟩ := write_eq_ok written
  rw [same] at grown
  have names := Settings.namesArtifacts_of_check accepted
  have spares := sparesDevices_of_grows grown spares
  have both := wroteBoth_of_differ spares (place_ne_of_write names spares header) header source
  exact ⟨m, read, wrote_of_wroteBoth grown both, rfl⟩

def smallDocument : String :=
  "<m><weakhyp><alpha>1</alpha><threshold>2</threshold><column>topPosition</column>" ++
    "<class id=\"7\">3</class></weakhyp></m>"

def smallWorkspace : Workspace where
  store := {
    entries := [(["work"], .directory), (["work", "m.xml"], .file (bytesOf smallDocument)),
      (["work", "gen"], .directory)]
    workingDirectory := ["work"] }
  journal := []

/-- The output directory is named in a roundabout way, and a part of the way to it is missing. -/
def smallSettings : Settings :=
  { Settings.default with outputDir := "./gen//new/../out" }

theorem run_wrote_smallWorkspace :
    ∃ m, ∃ w' : Workspace, ((readModel "m.xml" : Run Model) smallWorkspace).1 = .ok m ∧
      Wrote smallSettings m smallWorkspace.store w'.store := by
  have report : ((run smallSettings "m.xml" : Run Report) smallWorkspace).1 =
      .ok ⟨"./gen//new/../out/classifier.h", "./gen//new/../out/classifier.cc", 1, 1, 1⟩ := by
    decide +kernel
  have spares : SparesDevices smallSettings smallWorkspace.store := by
    rintro (_ | _) <;> decide +kernel
  rcases ran : (run smallSettings "m.xml" : Run Report) smallWorkspace with ⟨result, w'⟩
  rw [ran] at report
  obtain rfl := report
  obtain ⟨m, read, wrote, -⟩ := run_wrote ran spares
  exact ⟨m, w', read, wrote⟩

end StumpCompiler.Generation
