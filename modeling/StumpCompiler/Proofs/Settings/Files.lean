import StumpCompiler.Proofs.Settings.Given
import StumpCompiler.Proofs.Store.Devices
import StumpCompiler.Proofs.Workspace

/-! Saved settings are loaded again as they were, or refused for what is wrong with them. -/

namespace StumpCompiler.Settings

variable {s : Settings} {path : String} {f : Format}

/-- All fields with their values. -/
def fields (s : Settings) : List (Field × String) :=
  Field.all.map fun f => (f, s.get f)

theorem setAll_fields (s t : Settings) : t.setAll s.fields = s := rfl

theorem distinct_fields (s : Settings) : (s.fields.map Prod.fst).Nodup := by
  rw [fields, List.map_map]
  exact (by decide : Field.all.Nodup)

theorem toList_toJson (s : Settings) : s.toJson.toList = Format.written .json s.fields := by
  simp [toJson, memberJson, fields, Field.all, Format.written, named, Json.objectText,
    Json.memberText, Json.gap, Json.lines]

theorem toList_toToml (s : Settings) : s.toToml.toList = Format.written .toml s.fields := by
  simp [toToml, fields, Field.all, Format.written, named, Toml.documentText, Toml.lineText]

theorem toList_print (f : Format) (s : Settings) : (f.print s).toList = f.written s.fields := by
  cases f with
  | json => exact toList_toJson s
  | toml => exact toList_toToml s

/-- The bytes of a settings file. -/
def savedBytes (f : Format) (s : Settings) : List UInt8 :=
  Text.Utf8.encode (f.print s).toList

theorem ofContent_savedBytes (named : Format.ofPath? path = some f) (s : Settings) :
    ofContent path (.ok (savedBytes f s)) = s.validate := by
  rw [savedBytes, toList_print, ofContent_written named s.distinct_fields, setAll_fields]

/-! Saving and loading. -/

theorem load_eq (path : String) (w : Workspace) :
    (load path : Run Settings) w = (ofContent path (w.store.read path), w) := rfl

theorem save_eq (named : Format.ofPath? path = some f) (s : Settings) (w : Workspace) :
    (save s path : Run Unit) w =
      ((w.store.write path (savedBytes f s)).1.mapError (.settings <| .unwritable ·),
        { w with store := (w.store.write path (savedBytes f s)).2 }) := by
  rw [save, named]
  rfl

theorem save_of_unknown (unknown : Format.ofPath? path = none) (s : Settings) (w : Workspace) :
    (save s path : Run Unit) w = (.error (.settings .unknownFormat), w) := by
  rw [save, unknown]
  rfl

/-- The file name has one of the two endings of settings files. -/
def HasFormat (path : String) : Prop :=
  Path.extension? path = some "json" ∨ Path.extension? path = some "toml"

theorem ofPath?_of_hasFormat (h : HasFormat path) : ∃ f, Format.ofPath? path = some f := by
  rcases h with json | toml
  · exact ⟨.json, by simp [Format.ofPath?, json]⟩
  · exact ⟨.toml, by simp [Format.ofPath?, toml]⟩

theorem ofPath?_eq_none (h : ¬HasFormat path) : Format.ofPath? path = none := by
  rw [HasFormat, not_or] at h
  rw [Format.ofPath?]
  split
  · next json => exact absurd json h.1
  · next toml => exact absurd toml h.2
  · rfl

/-- Settings can be saved in both formats wherever a file can be written. They are loaded as they
were if they are accepted, and refused for their violation if they are not. With the devices in
their places, settings are saved nowhere else; in another format nothing is saved at all. -/
theorem load_save (s : Settings) (path : String) (w : Workspace) :
    (HasFormat path →
      (w.store.CanWrite path → ∃ w', (save s path : Run Unit) w = (.ok (), w') ∧
        (load path : Run Settings) w' = (s.validate, w')) ∧
      (w.store.DevicesInPlace → ((save s path : Run Unit) w).1 = .ok () →
        w.store.CanWrite path)) ∧
    (¬HasFormat path → (save s path : Run Unit) w = (.error (.settings .unknownFormat), w)) := by
  refine ⟨fun format => ?_, fun other => save_of_unknown (ofPath?_eq_none other) s w⟩
  obtain ⟨f, named⟩ := ofPath?_of_hasFormat format
  rw [save_eq named]
  refine ⟨fun can => ?_, fun devices saved => ?_⟩
  · have written := Store.isWritten_put can.file (savedBytes f s)
    have content := written.read (.refl _) (by rw [written.find?, if_pos rfl])
    rw [can.write_eq]
    refine ⟨_, rfl, ?_⟩
    rw [load_eq, content, ofContent_savedBytes named]
  · obtain ⟨ending, extension⟩ : ∃ ending, Path.extension? path = some ending :=
      format.elim (⟨_, ·⟩) (⟨_, ·⟩)
    exact (devices.write_eq_ok_iff extension _).mp (mapError_eq_ok_iff.mp saved)

/-- Accepted settings whose texts need every kind of string, and escapes. -/
def awkwardSettings : Settings where
  outputDir := "'''\n\"\"\"\\\x00"
  headerFile := "\"it's\".h"
  sourceFile := "\ttwo\nlines\r\n"
  includeGuard := "GUARD"
  featuresHeader := "\"\"\"'''\x7f"

theorem load_save_awkwardSettings :
    ∃ w', (save awkwardSettings "a.toml" : Run Unit) .initial = (.ok (), w') ∧
      (load "a.toml" : Run Settings) w' = (.ok awkwardSettings, w') := by
  have format : HasFormat "a.toml" := .inr (by decide +kernel)
  have target : Store.initial.target "a.toml" = .ok (.name ["work"] "a.toml" false) := by
    decide +kernel
  have place : Store.initial.place "a.toml" = ["work", "a.toml"] := by decide +kernel
  have free : Store.initial.find? ["work", "a.toml"] = none := by decide +kernel
  have can : Store.initial.CanWrite "a.toml" :=
    ⟨⟨⟨_, _, target, by decide, place⟩, by simp [place, free]⟩, .inl (place ▸ free)⟩
  have accepted : awkwardSettings.validate = .ok awkwardSettings := by decide +kernel
  obtain ⟨w', saved, loaded⟩ := ((load_save awkwardSettings "a.toml" .initial).1 format).1 can
  exact ⟨w', saved, accepted ▸ loaded⟩

end StumpCompiler.Settings
