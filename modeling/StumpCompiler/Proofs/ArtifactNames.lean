import StumpCompiler.Proofs.Agreement
import StumpCompiler.Proofs.Store.Later
import StumpCompiler.Proofs.Writing

/-! Where the names of the artifacts lead. An accepted name has no slash, but it may be a dot or
two, and these name no entry of the output directory: a run with such a name fails. Every other
accepted name is that of a file in the output directory, and if only files are there, a run on a
model ends well. -/

namespace StumpCompiler

/-- The name of an entry: a dot is the directory itself, and two are the one above it. -/
def Path.NamesEntry (name : String) : Prop :=
  name ≠ "." ∧ name ≠ ".."

instance (name : String) : Decidable (Path.NamesEntry name) :=
  inferInstanceAs (Decidable (_ ∧ _))

/-- The name that the settings give an artifact. -/
def Artifact.fileName (s : Settings) : Artifact → String
  | header => s.headerFile
  | source => s.sourceFile

theorem Artifact.path_eq (a : Artifact) (s : Settings) :
    a.path s = Path.join s.outputDir (a.fileName s) := by
  cases a <;> rfl

namespace Generation

variable {s : Settings} {here : Place} {name other : String}

/-! Places. -/

theorem isPart_fileName (names : s.NamesArtifacts) (a : Artifact) :
    Path.IsPart (a.fileName s) := by
  cases a with
  | header => exact names.header
  | source => exact names.source

theorem place_path (names : s.NamesArtifacts) (store : Store) (a : Artifact) :
    store.place (a.path s) = Store.step (store.place s.outputDir) (a.fileName s) := by
  rw [Artifact.path_eq, Store.place_join _ _ (isPart_fileName names a)]

/-- Only the name of an entry leads to an entry of that name. -/
theorem step_eq_append_iff : Store.step here name = here ++ [name] ↔ Path.NamesEntry name := by
  rw [Store.step, Path.NamesEntry]
  split_ifs with dot dots
  · simp [dot]
  · have differ : here.dropLast ≠ here ++ [name] := by
      intro same
      have lengths := congrArg List.length same
      simp only [List.length_dropLast, List.length_append, List.length_singleton] at lengths
      omega
    exact iff_of_false differ fun named => named.2 dots
  · simp [dot, dots]

theorem dots_of_step_eq_nil (h : Store.step here name = []) :
    name = ".." ∨ name = "." ∧ here = [] := by
  rw [Store.step] at h
  split_ifs at h with dot dots
  · exact .inr ⟨dot, h⟩
  · exact .inl dots
  · simp at h

/-- Two names lead to one place only as a dot and two dots at the root. -/
theorem step_ne_iff (differ : name ≠ other) :
    Store.step here name ≠ Store.step here other ↔
      Path.NamesEntry name ∨ Path.NamesEntry other ∨ here ≠ [] := by
  constructor
  · intro places
    by_contra none_left
    push Not at none_left
    obtain ⟨first, second, rfl⟩ := none_left
    have root {name : String} (dots : ¬Path.NamesEntry name) : Store.step [] name = [] := by
      rw [Path.NamesEntry] at dots
      rw [Store.step]
      split_ifs
      · rfl
      · rfl
      · tauto
    rw [root first, root second] at places
    contradiction
  · intro h same
    have below : Store.step here name = [] := by
      by_contra below
      exact differ (Store.eq_of_step_eq same below)
    have first := dots_of_step_eq_nil below
    have second := dots_of_step_eq_nil (same ▸ below)
    rcases first with rfl | ⟨rfl, root⟩ <;> rcases second with rfl | ⟨rfl, root'⟩
    · contradiction
    · simp [Path.NamesEntry, root'] at h
    · simp [Path.NamesEntry, root] at h
    · contradiction

end Generation

/-! A directory that is there. -/

namespace Store

variable {store store' : Store} {directory name : String} {p : Place} {bytes : List UInt8}

/-- The directory is there, none is in it, and nothing in it refuses what is written to it. The
empty path stands for the working directory. -/
structure OffersFiles (store : Store) (directory : String) : Prop where
  there : directory = "" ∨ store.hasDirectory directory
  no_directory : ∀ name, store.find? (store.place directory ++ [name]) ≠ some .directory
  not_full : ∀ name, store.find? (store.place directory ++ [name]) ≠ some .fullDevice

theorem OffersFiles.walk (h : store.OffersFiles directory) :
    store.walk (store.base directory) (Path.parts directory) = .ok (store.place directory) := by
  rcases h.there with rfl | there
  · rfl
  · exact (hasDirectory_iff.mp there).2.2.2

theorem OffersFiles.no_nul (h : store.OffersFiles directory) : '\x00' ∉ directory.toList := by
  rcases h.there with rfl | there
  · simp
  · exact (hasDirectory_iff.mp there).2.1

/-- What is written in the directory is a file, so that it goes on offering files. -/
theorem OffersFiles.later (h : store.OffersFiles directory) (change : store.Rewrites p store') :
    store'.OffersFiles directory := by
  have place := place_eq change.workingDirectory directory
  have kept {e : Entry} {q : Place} (no_file : ∀ bytes, e ≠ .file bytes)
      (absent : store.find? q ≠ some e) : store'.find? q ≠ some e := by
    by_cases here : q = p
    · subst here
      rcases change.here with same | ⟨-, new, written⟩
      · rwa [same]
      · rw [written]
        exact fun same => no_file new (Option.some.inj same).symm
    · rwa [change.others q here]
  constructor
  · exact h.there.imp_right change.keepsDirectories.hasDirectory
  · intro name
    rw [place]
    exact kept nofun (h.no_directory name)
  · intro name
    rw [place]
    exact kept nofun (h.not_full name)

/-- A part of a path that can be the name of a file. -/
structure FitsName (name : String) : Prop where
  no_nul : '\x00' ∉ name.toList
  short : name.utf8ByteSize ≤ maxNameSize

section Write

variable (offers : store.OffersFiles directory) (part : Path.IsPart name) (fits : FitsName name)

include offers part fits

theorem no_nul_join : '\x00' ∉ (Path.join directory name).toList := by
  intro mem
  rcases Path.mem_join part mem with mem | slash | mem
  · exact offers.no_nul mem
  · contradiction
  · exact fits.no_nul mem

theorem target_offered (short : (Path.join directory name).utf8ByteSize ≤ maxPathSize) :
    store.target (Path.join directory name) = .ok (aim (store.place directory) name false) :=
  target_join part offers.walk (no_nul_join offers part fits) short

theorem write_entry (named : Path.NamesEntry name)
    (short : (Path.join directory name).utf8ByteSize ≤ maxPathSize) :
    (store.write (Path.join directory name) bytes).1 = .ok () := by
  obtain ⟨dot, dots⟩ := named
  have aimed := target_offered offers part fits short
  rw [aim, if_neg dot, if_neg dots] at aimed
  have place : store.place (Path.join directory name) = store.place directory ++ [name] :=
    (place_of_target aimed).symm
  have file : store.IsFilePath (Path.join directory name) :=
    ⟨⟨store.place directory, name, aimed, fits.short, place⟩, place ▸ offers.no_directory name⟩
  rw [write_of_isFilePath file, place]
  split
  · rfl
  · next full => exact absurd full (offers.not_full name)
  · rfl

theorem write_dots (dots : ¬Path.NamesEntry name)
    (short : (Path.join directory name).utf8ByteSize ≤ maxPathSize) :
    store.write (Path.join directory name) bytes = (.error .isDirectory, store) := by
  have directory : ∃ place, aim (store.place directory) name false = .directory place := by
    rw [aim]
    split_ifs with dot two
    · exact ⟨_, rfl⟩
    · exact ⟨_, rfl⟩
    · exact absurd ⟨dot, two⟩ dots
  obtain ⟨place, eq⟩ := directory
  rw [write, target_offered offers part fits short, eq]

theorem write_long (long : maxPathSize < (Path.join directory name).utf8ByteSize) :
    store.write (Path.join directory name) bytes = (.error .nameTooLong, store) := by
  have filled : Path.join directory name ≠ "" := by
    rintro empty
    simp [empty] at long
  have no_nul := no_nul_join offers part fits
  rw [write, target, if_neg (by simpa using no_nul), if_neg filled, if_pos long]

theorem write_offered_iff : (store.write (Path.join directory name) bytes).1 = .ok () ↔
    Path.NamesEntry name ∧ (Path.join directory name).utf8ByteSize ≤ maxPathSize := by
  constructor
  · intro written
    by_contra refused
    by_cases short : (Path.join directory name).utf8ByteSize ≤ maxPathSize
    · rw [write_dots offers part fits (fun named => refused ⟨named, short⟩) short] at written
      contradiction
    · rw [write_long offers part fits (Nat.lt_of_not_le short)] at written
      contradiction
  · rintro ⟨named, short⟩
    exact write_entry offers part fits named short

end Write

end Store

namespace Generation

variable {s : Settings} {m : Model} {store : Store}

/-! Runs. -/

/-- The name of an artifact leads into the output directory by a path that is not too long. -/
def LeadsInside (s : Settings) (a : Artifact) : Prop :=
  Path.NamesEntry (a.fileName s) ∧ (a.path s).utf8ByteSize ≤ Store.maxPathSize

section Offered

variable (names : s.NamesArtifacts) (offers : store.OffersFiles s.outputDir)
  (fits : ∀ a : Artifact, Store.FitsName (a.fileName s))

include names offers fits

theorem write_artifact_iff (a : Artifact) (bytes : List UInt8) :
    (store.write (a.path s) bytes).1 = .ok () ↔ LeadsInside s a := by
  rw [LeadsInside, Artifact.path_eq]
  exact Store.write_offered_iff offers (isPart_fileName names a) (fits a)

theorem outcome_iff :
    (outcome s m store).1 = .ok (.ofModel s m) ↔ ∀ a : Artifact, LeadsInside s a := by
  have header := write_artifact_iff names offers fits .header (bytesOf (Cpp.header s))
  have offers := offers.later (Store.rewrites_write store s.headerPath (bytesOf (Cpp.header s)))
  have source := write_artifact_iff names offers fits .source (bytesOf (Cpp.source m s))
  rw [outcome_eq_ok_iff]
  constructor
  · rintro ⟨first, second⟩ (_ | _)
    · exact header.mp first
    · exact source.mp second
  · intro inside
    exact ⟨header.mpr (inside .header), source.mpr (inside .source)⟩

theorem outcome_of_dots (short : ∀ a : Artifact, (a.path s).utf8ByteSize ≤ Store.maxPathSize)
    (dots : ∃ a : Artifact, ¬Path.NamesEntry (a.fileName s)) :
    (outcome s m store).1 = .error (.io .isDirectory) := by
  have refused {store : Store} (offers : store.OffersFiles s.outputDir) {a : Artifact}
      (dots : ¬Path.NamesEntry (a.fileName s)) (bytes : List UInt8) :
      store.write (a.path s) bytes = (.error .isDirectory, store) := by
    have short := short a
    rw [Artifact.path_eq] at short ⊢
    exact Store.write_dots offers (isPart_fileName names a) (fits a) dots short
  rw [outcome_result]
  by_cases header : Path.NamesEntry s.headerFile
  · obtain ⟨_ | _, source⟩ := dots
    · contradiction
    · have first := (write_artifact_iff names offers fits .header
        (bytesOf (Cpp.header s))).mpr ⟨header, short .header⟩
      have offers := offers.later (Store.rewrites_write store s.headerPath (bytesOf (Cpp.header s)))
      have second := refused offers source (bytesOf (Cpp.source m s))
      rw [show (store.write s.headerPath _).1 = _ from first,
        show Store.write _ s.sourcePath _ = _ from second]
      rfl
  · have first := refused offers (a := .header) header (bytesOf (Cpp.header s))
    rw [show store.write s.headerPath _ = _ from first]
    rfl

end Offered

/-- Accepted settings may name an artifact by a dot or two, and only these names do not lead to
entries of the output directory that have them. Two names lead to one place only if both are such and
the output directory is the root. If the directory is there, has no other in it, and refuses nothing,
then a run on a model ends well if and only if both names lead into it by paths that are not too
long. -/
theorem names_lead_inside (accepted : s.check = .ok ()) :
    (∀ (store : Store) (a : Artifact),
      store.place (a.path s) = store.place s.outputDir ++ [a.fileName s] ↔
        Path.NamesEntry (a.fileName s)) ∧
    (∀ store : Store, store.place s.headerPath ≠ store.place s.sourcePath ↔
      Path.NamesEntry s.headerFile ∨ Path.NamesEntry s.sourceFile ∨
        store.place s.outputDir ≠ []) ∧
    ∀ (w : Workspace) (path : String) (m : Model),
      w.store.OffersFiles s.outputDir → (∀ a : Artifact, Store.FitsName (a.fileName s)) →
      ((readModel path : Run Model) w).1 = .ok m →
      (((run s path : Run Report) w).1 = .ok (.ofModel s m) ↔ ∀ a : Artifact, LeadsInside s a) ∧
      ((∀ a : Artifact, (a.path s).utf8ByteSize ≤ Store.maxPathSize) →
        (∃ a : Artifact, ¬Path.NamesEntry (a.fileName s)) →
        ((run s path : Run Report) w).1 = .error (.io .isDirectory)) := by
  have names := Settings.namesArtifacts_of_check accepted
  refine ⟨fun store a => ?_, fun store => ?_, fun w path m offers fits read => ?_⟩
  · rw [place_path names]
    exact step_eq_append_iff
  · have header : store.place s.headerPath = _ := place_path names store .header
    have source : store.place s.sourcePath = _ := place_path names store .source
    rw [header, source]
    exact step_ne_iff names.differ
  · obtain ⟨v, same, eq⟩ := run_eq_write accepted read
    rw [← same] at offers
    have there := offers.there.imp_right Store.has_of_hasDirectory
    obtain ⟨v', written, -⟩ := write_of_has (m := m) there
    rw [eq, written]
    exact ⟨outcome_iff names offers fits, outcome_of_dots names offers fits⟩

/-- Three dots are a name like any other. -/
def dottedSettings : Settings :=
  { Settings.default with outputDir := "gen", headerFile := "...", sourceFile := ".cc" }

theorem names_lead_inside_dotted :
    dottedSettings.check = .ok () ∧ (∀ a : Artifact, LeadsInside dottedSettings a) ∧
      ((run dottedSettings "m.xml" : Run Report) smallWorkspace).1 =
        .ok (.ofModel dottedSettings smallModel) := by
  have accepted : dottedSettings.check = .ok () := by decide +kernel
  have inside : ∀ a : Artifact, LeadsInside dottedSettings a := by
    rintro (_ | _) <;> exact ⟨by decide, by decide +kernel⟩
  have offers : smallWorkspace.store.OffersFiles "gen" := by
    have place : smallWorkspace.store.place "gen" = ["work", "gen"] := by decide +kernel
    constructor
    · exact .inr (by decide +kernel)
    all_goals
      intro name
      rw [place]
      simp [Store.find?, smallWorkspace, List.lookup]
  have fits : ∀ a : Artifact, Store.FitsName (a.fileName dottedSettings) := by
    rintro (_ | _) <;> exact ⟨by decide +kernel, by decide +kernel⟩
  obtain ⟨-, -, runs⟩ := names_lead_inside accepted
  exact ⟨accepted, inside, (runs _ _ _ offers fits readModel_small).1.mpr inside⟩

/-- The source is named by the directory above its own. -/
def risingSettings : Settings :=
  { Settings.default with outputDir := "gen", sourceFile := ".." }

/-- Two dots are accepted as a name, and lead out of the output directory. The run fails in the end,
with the header written already. -/
theorem rising_name_leads_outside :
    risingSettings.check = .ok () ∧
      smallWorkspace.store.place risingSettings.outputDir = ["work", "gen"] ∧
      smallWorkspace.store.place risingSettings.sourcePath = ["work"] ∧
      ((run risingSettings "m.xml" : Run Report) smallWorkspace).1 = .error (.io .isDirectory) ∧
      ((run risingSettings "m.xml" : Run Report) smallWorkspace).2.store ≠ smallWorkspace.store := by
  decide +kernel

end Generation

end StumpCompiler
