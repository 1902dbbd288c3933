import StumpCompiler.Proofs.ModelFile
import StumpCompiler.Proofs.Sink
import StumpCompiler.Proofs.Writing

/-! An artifact is the same bytes whichever way it is made: rendered by itself or together with the
other one, written to a file, or emitted to a writer. A writer that takes only so many bytes gets
the first ones, and the fault shows. -/

namespace StumpCompiler

open Writer.Limited (held room)

/-- The ways to emit an artifact to a writer. -/
def Artifact.routes {σ : Type} [Writer σ] (s : Settings) (m : Model) :
    Artifact → List (σ → Except IoFault Unit × σ)
  | header => [Artifact.header.emit s m, emitHeader s]
  | source => [Artifact.source.emit s m, emitSource m s]

namespace Generation

variable {s : Settings} {m : Model} {store : Store} {w made : Workspace} {report : Report}

/-- The paths of the artifacts lead to two files, which are there or can be made. -/
structure HasOwnFiles (s : Settings) (store : Store) : Prop where
  can_write : ∀ a : Artifact, store.CanWrite (a.path s)
  differ : store.place s.headerPath ≠ store.place s.sourcePath

theorem outcome_of_hasOwnFiles (own : HasOwnFiles s store) :
    ∃ after, outcome s m store = (.ok (.ofModel s m), after) ∧ HasOwnFiles s after := by
  obtain ⟨written, header⟩ :
      ∃ written, store.write s.headerPath (bytesOf (Cpp.header s)) = (.ok (), written) :=
    ⟨_, (own.can_write .header).write_eq _⟩
  have first := Store.rewrites_write store s.headerPath (bytesOf (Cpp.header s))
  rw [header] at first
  obtain ⟨after, source⟩ :
      ∃ after, written.write s.sourcePath (bytesOf (Cpp.source m s)) = (.ok (), after) :=
    ⟨_, (first.canWrite (own.can_write .source)).write_eq _⟩
  have second := Store.rewrites_write written s.sourcePath (bytesOf (Cpp.source m s))
  rw [source] at second
  refine ⟨after, ?_, fun a => second.canWrite (first.canWrite (own.can_write a)), ?_⟩
  · simp only [outcome, header, source]
  · have same := second.workingDirectory.trans first.workingDirectory
    rw [Store.place_eq same, Store.place_eq same]
    exact own.differ

/-- Where the artifacts have files of their own, as soon as the output directory is there, writing
ends well. -/
theorem write_of_hasOwnFiles
    (ensured : (ensureDirectory s.outputDir : Run Unit) w = (.ok (), made))
    (own : HasOwnFiles s made.store) :
    ∃ w', (write s m : Run Report) w = (.ok (.ofModel s m), w') ∧ HasOwnFiles s w'.store := by
  obtain ⟨w', eq, same⟩ := write_of_ensured (m := m) ensured
  obtain ⟨after, done, own⟩ := outcome_of_hasOwnFiles (m := m) own
  rw [done] at eq same
  exact ⟨w', eq, same ▸ own⟩

/-- Writing that ends well leaves the artifacts in their own files. -/
theorem holdsFile_of_write {σ : Type} [Host (StateM σ)] [Host.OnStore σ] {w w' : σ}
    (h : (write s m : ExceptT Fault (StateM σ) Report) w = (.ok report, w'))
    (own : HasOwnFiles s (Host.store w')) (a : Artifact) :
    (Host.store w').HoldsFile (a.path s) (bytesOf (a.render s m)) := by
  obtain ⟨made, between, grown, first, header, second, source⟩ := write_parts h
  have same : (Host.store w').workingDirectory = (Host.store w).workingDirectory :=
    second.workingDirectory.trans (first.workingDirectory.trans grown.workingDirectory)
  have place (path : String) : (Host.store w').place path = (Host.store w).place path :=
    Store.place_eq same path
  have differ := own.differ
  rw [place, place] at differ
  have taken : (Host.store w').HasTaken ((Host.store w').place (a.path s))
      (bytesOf (a.render s m)) := by
    rw [place]
    cases a with
    | header =>
      -- The source is written to another file, so the header is still there.
      have kept := second.others _ differ
      rw [Store.HasTaken, ← kept] at header
      exact header
    | source => exact source
  refine Store.holdsFile_iff.mpr ⟨(own.can_write a).file, ?_⟩
  rcases taken with file | device
  · exact file
  · rcases (own.can_write a).writable with free | ⟨old, file⟩
    · simp [device] at free
    · simp [device] at file

end Generation

namespace Artifact

open Generation (HasOwnFiles)

/-- Whichever way an artifact is made, it comes to these bytes. -/
structure ComesTo (a : Artifact) (s : Settings) (m : Model) (bytes : List UInt8) : Prop where
  header : a = .header → bytesOf (Cpp.header s) = bytes
  source : a = .source → bytesOf (Cpp.source m s) = bytes
  alone : bytesOf (a.render s m) = bytes
  together (σ : Type) [Host (StateM σ)] (w : σ) :
    bytesOf (((Generation.render s m : StateM σ Rendered) w).1.text a) = bytes
  /-- A writer with room for everything gets everything. -/
  unlimited (σ : Type) [Writer σ] [Writer.Limited σ] :
    ∀ route ∈ a.routes s m, ∀ w : σ, room w = ⊤ →
      (route w).1 = .ok () ∧ held (route w).2 = held w ++ bytes
  /-- A writer with room for `c` bytes gets the first of them, and it is a fault if that is not
  all. -/
  limited (σ : Type) [Writer σ] [Writer.Limited σ] :
    ∀ route ∈ a.routes s m, ∀ (c : ℕ) (w : σ), room w = c →
      ((route w).1 = .ok () ↔ bytes.length ≤ c) ∧
        held (route w).2 = held w ++ bytes.take (min c bytes.length)
  /-- If writing ends well, in any surroundings, and the artifacts have files of their own, then
  they are in the file. -/
  written (σ : Type) [Host (StateM σ)] [Host.OnStore σ] (w w' : σ) (report : Report) :
    (Generation.write s m : ExceptT Fault (StateM σ) Report) w = (.ok report, w') →
      HasOwnFiles s (Host.store w') → (Host.store w').HoldsFile (a.path s) bytes
  /-- If the artifacts have such files as soon as the output directory is there, then writing ends
  well. -/
  writes (w made : Workspace) :
    (Generation.ensureDirectory s.outputDir : Run Unit) w = (.ok (), made) →
      HasOwnFiles s made.store →
        ∃ w', (Generation.write s m : Run Report) w = (.ok (.ofModel s m), w') ∧
          w'.store.HoldsFile (a.path s) bytes

/-- All routes write the same bytes. -/
theorem eq_writeAll_of_mem_routes {σ : Type} [Writer σ] {a : Artifact} {s : Settings} {m : Model}
    {route : σ → Except IoFault Unit × σ} (mem : route ∈ a.routes s m) (w : σ) :
    route w = writeAll w (bytesOf (a.render s m)) := by
  cases a <;>
  · rw [routes, List.mem_pair] at mem
    rcases mem with rfl | rfl <;> rfl

/-- For any settings and any model, all ways to make an artifact come to the same bytes, the UTF-8
bytes of its text. -/
theorem comesTo_bytesOf_render (a : Artifact) (s : Settings) (m : Model) :
    a.ComesTo s m (bytesOf (a.render s m)) where
  header := by
    rintro rfl
    rfl
  source := by
    rintro rfl
    rfl
  alone := rfl
  together σ _ w := by cases a <;> rfl
  unlimited σ _ _ route mem w endless := by
    rw [eq_writeAll_of_mem_routes mem]
    exact Writer.writeAll_unlimited endless _
  limited σ _ _ route mem c w limit := by
    rw [eq_writeAll_of_mem_routes mem]
    exact Writer.writeAll_limited limit _
  written σ _ _ w w' report ended own := Generation.holdsFile_of_write ended own a
  writes w made ensured own := by
    obtain ⟨w', ended, own⟩ := Generation.write_of_hasOwnFiles (m := m) ensured own
    exact ⟨w', ended, Generation.holdsFile_of_write ended own a⟩

open Generation (ensureDirectory smallModel smallWorkspace)

/-- The features header has a letter of two bytes, and the output directory is missing. -/
def accentedSettings : Settings :=
  { Settings.default with outputDir := "out", featuresHeader := "é.h" }

theorem hasOwnFiles_accented :
    ∃ made, (ensureDirectory accentedSettings.outputDir : Run Unit) smallWorkspace =
      (.ok (), made) ∧ HasOwnFiles accentedSettings made.store := by
  have ok : ((ensureDirectory "out" : Run Unit) smallWorkspace).1 = .ok () := by decide +kernel
  refine ⟨((ensureDirectory "out" : Run Unit) smallWorkspace).2, Prod.ext ok rfl, ?_, ?_⟩
  · rintro (_ | _)
    · exact ⟨⟨⟨["work", "out"], "classifier.h", by decide +kernel⟩, by decide +kernel⟩,
        .inl (by decide +kernel)⟩
    · exact ⟨⟨⟨["work", "out"], "classifier.cc", by decide +kernel⟩, by decide +kernel⟩,
        .inl (by decide +kernel)⟩
  · decide +kernel

/-- A writer that is full inside the letter holds its first byte. The files are written. -/
theorem comesTo_bytesOf_render_accented :
    (emitHeader accentedSettings (Trickle.mk 69 [])).1 ≠ .ok () ∧
      (emitHeader accentedSettings (Trickle.mk 69 [])).2.held.getLast? = some 0xC3 ∧
      (Artifact.header.emit accentedSettings smallModel (Sink.ofCapacity 1000)).1 = .ok () ∧
      (emitHeader accentedSettings ([] : List UInt8)).2 = bytesOf (Cpp.header accentedSettings) ∧
      ∃ w', (Generation.write accentedSettings smallModel : Run Report) smallWorkspace =
          (.ok (.ofModel accentedSettings smallModel), w') ∧
        w'.store.HoldsFile "out/classifier.h" (bytesOf (Cpp.header accentedSettings)) := by
  have same : Artifact.header.ComesTo accentedSettings smallModel
      (bytesOf (Cpp.header accentedSettings)) :=
    comesTo_bytesOf_render .header accentedSettings smallModel
  have size : 69 < (bytesOf (Cpp.header accentedSettings)).length ∧
      (bytesOf (Cpp.header accentedSettings)).length ≤ 1000 := by
    decide +kernel
  have inside : ((bytesOf (Cpp.header accentedSettings)).take 69).getLast? = some 0xC3 := by
    decide +kernel
  have cut := same.limited Trickle (emitHeader accentedSettings) (by simp [routes]) 69 ⟨69, []⟩ rfl
  have fits := same.limited Sink (Artifact.header.emit accentedSettings smallModel)
    (by simp [routes]) 1000 (Sink.ofCapacity 1000) rfl
  have all := same.unlimited (List UInt8) (emitHeader accentedSettings) (by simp [routes]) [] rfl
  obtain ⟨made, ensured, own⟩ := hasOwnFiles_accented
  refine ⟨fun ok => ?_, ?_, fits.1.mpr size.2, all.2.trans (List.nil_append _),
    same.writes smallWorkspace made ensured own⟩
  · exact absurd (cut.1.mp ok) (Nat.not_le.mpr size.1)
  · have filled := cut.2.trans (List.nil_append _)
    rw [Nat.min_eq_left size.1.le] at filled
    exact (congrArg List.getLast? filled).trans inside

end Artifact

end StumpCompiler
