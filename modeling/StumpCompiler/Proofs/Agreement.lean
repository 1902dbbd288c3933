import StumpCompiler.Proofs.Failure
import StumpCompiler.Proofs.Reader.Grammar

/-! Writing a model that is there already, without the run that reads it. A run checks its settings
before it does anything; writing alone does not. So the two do the same if the settings are accepted,
and never if they are not. -/

namespace StumpCompiler

/-- In workspaces that differ in their journals only, the steps come to the same result, and the
stores stay the same. -/
def IgnoresJournal {α : Type} (x : StateM Workspace α) : Prop :=
  ∀ w w' : Workspace, w.store = w'.store →
    (x w).1 = (x w').1 ∧ (x w).2.store = (x w').2.store

namespace IgnoresJournal

variable {α β : Type}

theorem pure (a : α) : IgnoresJournal (Pure.pure a) :=
  fun _ _ same => ⟨rfl, same⟩

theorem bind {x : StateM Workspace α} {f : α → StateM Workspace β} (first : IgnoresJournal x)
    (next : ∀ a, IgnoresJournal (f a)) : IgnoresJournal (x >>= f) := by
  intro w w' same
  obtain ⟨result, stores⟩ := first w w' same
  change (f (x w).1 (x w).2).1 = (f (x w').1 (x w').2).1 ∧
    (f (x w).1 (x w).2).2.store = (f (x w').1 (x w').2).2.store
  rw [result]
  exact next _ _ _ stores

/-- Looking at the store. -/
theorem look (f : Store → α) : IgnoresJournal fun w => (f w.store, w) :=
  fun _ _ same => ⟨congrArg f same, same⟩

theorem change (f : Store → α × Store) : IgnoresJournal (Workspace.change f) := by
  intro w w' same
  rw [Workspace.change, Workspace.change, same]
  exact ⟨rfl, rfl⟩

theorem note (r : Record) : IgnoresJournal (Host.note r) :=
  fun _ _ same => ⟨rfl, same⟩

theorem noteAll (records : List Record) : IgnoresJournal (Host.noteAll records) := by
  intro w w' same
  rw [Workspace.noteAll_eq, Workspace.noteAll_eq]
  exact ⟨rfl, same⟩

/-! Directories. -/

theorem settle (path : String) (result : Except IoFault Unit) :
    IgnoresJournal (Host.settle path result) := by
  cases result with
  | ok => exact pure _
  | error fault =>
    refine bind (look fun s => s.hasDirectory path) fun there => ?_
    split <;> exact pure _

theorem makeWith {above : StateM Workspace (Except IoFault Unit)} (h : IgnoresJournal above)
    (path : String) : IgnoresJournal (Host.makeWith above path) := by
  have make : IgnoresJournal (Host.makeDirectory path) := change fun s => s.makeDirectory path
  refine bind make fun result => ?_
  split
  · refine bind h fun result => ?_
    split
    · exact pure _
    · exact bind make fun result => settle path result
  · exact settle path _

theorem makeNamed (absolute : Bool) (parts : List String) :
    IgnoresJournal (Host.makeNamed absolute parts) := by
  induction parts with
  | nil => exact pure _
  | cons part above ih => exact makeWith ih _

theorem makeDirectories (path : String) : IgnoresJournal (Host.makeDirectories path) :=
  makeWith (makeNamed _ _) path

/-! Steps that can fail. -/

theorem run_bind {x : Run α} {f : α → Run β} (first : IgnoresJournal x)
    (next : ∀ a, IgnoresJournal (f a)) : IgnoresJournal (x >>= f : Run β) := by
  intro w w' same
  have after := first w w' same
  rw [Run.bind_eq, Run.bind_eq]
  rcases ran : x w with ⟨result, v⟩
  rcases ran' : x w' with ⟨result', v'⟩
  rw [ran, ran'] at after
  obtain ⟨rfl, stores⟩ : result = result' ∧ v.store = v'.store := after
  cases result with
  | ok a => exact next a v v' stores
  | error e => exact ⟨rfl, stores⟩

theorem lift {x : StateM Workspace α} (h : IgnoresJournal x) :
    IgnoresJournal (liftM x : Run α) :=
  bind h fun a => pure (Except.ok a)

theorem ofResult (x : Except Fault α) : IgnoresJournal (ExceptT.mk (Pure.pure x) : Run α) :=
  pure x

end IgnoresJournal

namespace Generation

variable {s : Settings} {m : Model} {path : String} {w w' : Workspace}

theorem ensureDirectory_ignoresJournal (path : String) :
    IgnoresJournal (ensureDirectory path : Run Unit) := by
  refine .run_bind (.lift (.look fun s => s.has path)) fun there => ?_
  split
  · exact .pure _
  · refine .run_bind (.lift (.makeDirectories path)) fun result => ?_
    exact .run_bind (.ofResult _) fun _ => .lift (.note _)

theorem writeFile_ignoresJournal (path : String) (bytes : List UInt8) :
    IgnoresJournal (writeFile path bytes : Run Unit) := by
  refine .run_bind (.lift (.change fun s => s.write path bytes)) fun result => ?_
  exact .run_bind (.ofResult _) fun _ => .lift (.note _)

theorem render_ignoresJournal (s : Settings) (m : Model) :
    IgnoresJournal (render s m : StateM Workspace Rendered) := by
  intro w w' same
  obtain ⟨v, rendered, store⟩ := render_eq s m w
  obtain ⟨v', rendered', store'⟩ := render_eq s m w'
  rw [rendered, rendered']
  exact ⟨rfl, store.trans (same.trans store'.symm)⟩

theorem write_ignoresJournal (s : Settings) (m : Model) :
    IgnoresJournal (write s m : Run Report) := by
  refine .run_bind (.lift (render_ignoresJournal s m)) fun rendered => ?_
  refine .run_bind (ensureDirectory_ignoresJournal _) fun _ => ?_
  refine .run_bind ?_ fun _ => .pure _
  refine .run_bind (writeFile_ignoresJournal _ _) fun _ => ?_
  exact .run_bind (writeFile_ignoresJournal _ _) fun _ => .pure _

/-! Accepted and refused settings. -/

/-- What a run writes, it writes like the model alone. -/
theorem run_eq_write (accepted : s.check = .ok ())
    (read : ((readModel path : Run Model) w).1 = .ok m) :
    ∃ v : Workspace, v.store = w.store ∧
      (run s path : Run Report) w = (write s m : Run Report) v := by
  have valid : s.validate = .ok s := Settings.validate_eq_ok_iff.mpr ⟨accepted, rfl⟩
  have unchanged := store_readModel path w
  rcases ran : (readModel path : Run Model) w with ⟨result, v⟩
  rw [ran] at read unchanged
  obtain rfl := read
  refine ⟨v.noted (modelRecords path m), unchanged, ?_⟩
  rw [run, valid, Run.bind_eq]
  change ((readModel path : Run Model) >>= _) w = _
  rw [Run.bind_eq, ran]
  change (liftM (Host.noteAll (modelRecords path m) : StateM Workspace Unit) >>= _ : Run Report) v = _
  rw [Run.lift_bind_eq, Workspace.noteAll_eq]

/-- A run with settings that are refused does nothing. -/
theorem run_of_refused {v : Settings.Violation} (refused : s.check = .error v) :
    (run s path : Run Report) w = (.error v.fault, w) := by
  rw [run, Settings.validate, refused]
  rfl

/-! What is left of the artifacts. -/

/-- Both artifacts of the model are at their places. -/
def HasBoth (s : Settings) (m : Model) (before after : Store) : Prop :=
  ∀ a : Artifact, after.find? (before.place (a.path s)) = some (.file (bytesOf (a.render s m)))

/-- The third byte tells the artifacts apart. -/
theorem bytesOf_header_ne_source (s : Settings) (m : Model) :
    bytesOf (Cpp.header s) ≠ bytesOf (Cpp.source m s) := by
  have header : (bytesOf (Cpp.header s))[2]? = some 0x66 := by
    rw [bytesOf, Cpp.toList_header]
    simp [Cpp.headerLines, Cpp.ended, Text.Utf8.encode, Text.Utf8.encodeChar]
  have source : (bytesOf (Cpp.source m s))[2]? = some 0x6e := by
    rw [bytesOf, Cpp.toList_source]
    simp [Cpp.sourceLines, Cpp.headLines, Cpp.ended, Text.Utf8.encode, Text.Utf8.encodeChar]
  intro same
  rw [same, source] at header
  contradiction

/-- The source is written last, so it is always there. -/
theorem source_of_write {report : Report} (h : (write s m : Run Report) w = (.ok report, w'))
    (spares : SparesDevices s w.store) :
    w'.store.find? (w.store.place s.sourcePath) = some (.file (bytesOf (Cpp.source m s))) := by
  obtain ⟨-, made, written, grown, header, source⟩ := write_eq_ok h
  have spares := sparesDevices_of_grows grown spares
  have first := Store.write_eq_ok (spares .header).1 (spares .header).2 header
  have place : written.place s.sourcePath = w.store.place s.sourcePath :=
    Store.place_eq (first.workingDirectory.trans grown.workingDirectory) _
  have no_device {e : Entry} (device : made.find? (made.place s.sourcePath) ≠ some e)
      (no_file : ∀ bytes, e ≠ .file bytes) : written.find? (written.place s.sourcePath) ≠ some e := by
    rw [first.find?, Store.place_eq first.workingDirectory]
    split
    · exact fun same => no_file _ (Option.some.inj same).symm
    · exact device
  have second := Store.write_eq_ok (no_device (spares .source).1 nofun)
    (no_device (spares .source).2 nofun) source
  rw [second.find?, if_pos place.symm]

theorem hasBoth_iff {report : Report} (h : (write s m : Run Report) w = (.ok report, w'))
    (spares : SparesDevices s w.store) :
    HasBoth s m w.store w'.store ↔ w.store.place s.sourcePath ≠ w.store.place s.headerPath := by
  obtain ⟨-, made, written, grown, header, source⟩ := write_eq_ok h
  have place (path : String) : made.place path = w.store.place path :=
    Store.place_eq grown.workingDirectory path
  constructor
  · intro both same
    have first : w'.store.find? (w.store.place s.headerPath) =
        some (.file (bytesOf (Cpp.header s))) := both .header
    have second := source_of_write h spares
    rw [same, first, Option.some.injEq, Entry.file.injEq] at second
    exact bytesOf_header_ne_source s m second
  · intro differ
    simp only [← place] at differ
    have both := wroteBoth_of_differ (sparesDevices_of_grows grown spares) differ header source
    intro a
    rw [← place]
    exact both.holds a

/-- For a model that a run reads, writing it does what the run does if and only if the settings are
accepted. A run with settings that are refused does nothing. Writing goes ahead with them, and what
ends well leaves both artifacts if their places differ, as they do with accepted settings; otherwise
the source has replaced the header. -/
theorem write_agrees_iff (read : ((readModel path : Run Model) w).1 = .ok m) :
    (((run s path : Run Report) w).1 = ((write s m : Run Report) w).1 ∧
        ((run s path : Run Report) w).2.store = ((write s m : Run Report) w).2.store ↔
      s.check = .ok ()) ∧
      (∀ v, s.check = .error v → (run s path : Run Report) w = (.error v.fault, w)) ∧
      ∀ report w', (write s m : Run Report) w = (.ok report, w') → SparesDevices s w.store →
        (s.check = .ok () → HasBoth s m w.store w'.store) ∧
        (HasBoth s m w.store w'.store ↔
          w.store.place s.sourcePath ≠ w.store.place s.headerPath) := by
  refine ⟨⟨fun ⟨same, _⟩ => ?_, fun accepted => ?_⟩, fun v => run_of_refused,
    fun report w' written spares => ⟨fun accepted => ?_, hasBoth_iff written spares⟩⟩
  · rcases checked : s.check with v | _
    · rw [run_of_refused checked] at same
      rcases written : (write s m : Run Report) w with ⟨_ | _, w'⟩
      · obtain ⟨cause, rfl⟩ := (write_stages written).1
        rw [written] at same
        cases v <;> cases same
      · rw [written] at same
        cases same
    · rfl
  · obtain ⟨v, same, eq⟩ := run_eq_write accepted read
    rw [eq]
    exact write_ignoresJournal s m v w same
  · rw [hasBoth_iff written spares]
    obtain ⟨-, made, written, grown, header, -⟩ := write_eq_ok written
    have differ := place_ne_of_write (Settings.namesArtifacts_of_check accepted)
      (sparesDevices_of_grows grown spares) header
    rwa [Store.place_eq grown.workingDirectory, Store.place_eq grown.workingDirectory] at differ

/-- The model of the small document. -/
def smallModel : Model where
  classes := ⟨["7"], by decide⟩
  hypotheses := Reader.smallModel.hypotheses
  hypotheses_ne_nil := by decide
  votes_length := by decide

theorem readModel_small : ((readModel "m.xml" : Run Model) smallWorkspace).1 = .ok smallModel := by
  decide +kernel

theorem write_agrees_iff_small :
    ((run smallSettings "m.xml" : Run Report) smallWorkspace).1 =
        ((write smallSettings smallModel : Run Report) smallWorkspace).1 ∧
      ((run smallSettings "m.xml" : Run Report) smallWorkspace).2.store =
        ((write smallSettings smallModel : Run Report) smallWorkspace).2.store :=
  (write_agrees_iff readModel_small).1.mpr (by decide +kernel)

/-- Both artifacts have one name. -/
def sameNames : Settings :=
  { Settings.default with sourceFile := "classifier.h" }

/-- Writing ends well with settings that a run refuses, and of both artifacts only the source is
left. -/
theorem write_replaces_header :
    ((readModel "m.xml" : Run Model) smallWorkspace).1 = .ok smallModel ∧
      (run sameNames "m.xml" : Run Report) smallWorkspace =
        (.error (.invalidParameter "source_file" "classifier.h" "must differ from header_file"),
          smallWorkspace) ∧
      ∃ w', (write sameNames smallModel : Run Report) smallWorkspace =
          (.ok ⟨"./classifier.h", "./classifier.h", 1, 1, 1⟩, w') ∧
        w'.store.find? ["work", "classifier.h"] =
          some (.file (bytesOf (Cpp.source smallModel sameNames))) := by
  have refused : sameNames.check = .error (.sameName "classifier.h") := by decide +kernel
  have spares : SparesDevices sameNames smallWorkspace.store := by
    rintro (_ | _) <;> decide +kernel
  have place : smallWorkspace.store.place sameNames.sourcePath = ["work", "classifier.h"] := by
    decide +kernel
  have report : ((write sameNames smallModel : Run Report) smallWorkspace).1 =
      .ok ⟨"./classifier.h", "./classifier.h", 1, 1, 1⟩ := by
    decide +kernel
  rcases written : (write sameNames smallModel : Run Report) smallWorkspace with ⟨result, w'⟩
  rw [written] at report
  obtain rfl := report
  exact ⟨readModel_small, run_of_refused refused, w', rfl, place ▸ source_of_write written spares⟩

end Generation

end StumpCompiler
