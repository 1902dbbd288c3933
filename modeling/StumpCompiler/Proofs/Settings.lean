import StumpCompiler.Proofs.Except
import StumpCompiler.Proofs.Store.Path
import StumpCompiler.Settings.Basic

/-! Accepted settings give the artifacts names of their own in the output directory, and the header a
guard that is an identifier. -/

namespace StumpCompiler.Settings

variable {s t : Settings}

theorem validate_eq_ok_iff : s.validate = .ok t ↔ s.check = .ok () ∧ t = s := by
  rw [validate]
  cases s.check <;> simp [eq_comm]

theorem isPart_of_checkName {f : Field} (h : s.checkName f = .ok ()) : Path.IsPart (s.get f) := by
  unfold checkName at h
  simp only at h
  split_ifs at h with empty slash
  refine ⟨empty, fun mem => slash ?_⟩
  rw [List.any_eq_true]
  exact ⟨'/', mem, by simp⟩

/-- What accepted settings say of the names of the artifacts. -/
structure NamesArtifacts (s : Settings) : Prop where
  header : Path.IsPart s.headerFile
  source : Path.IsPart s.sourceFile
  differ : s.headerFile ≠ s.sourceFile

theorem namesArtifacts_of_check (h : s.check = .ok ()) : s.NamesArtifacts := by
  rw [check] at h
  obtain ⟨_, header, h⟩ := bind_eq_ok_iff.mp h
  obtain ⟨_, source, h⟩ := bind_eq_ok_iff.mp h
  obtain ⟨_, -, h⟩ := bind_eq_ok_iff.mp h
  refine ⟨isPart_of_checkName header, isPart_of_checkName source, fun same => ?_⟩
  rw [if_pos same] at h
  contradiction

theorem isIdentifier_of_check (h : s.check = .ok ()) : isIdentifier s.includeGuard := by
  rw [check] at h
  obtain ⟨_, -, h⟩ := bind_eq_ok_iff.mp h
  obtain ⟨_, -, h⟩ := bind_eq_ok_iff.mp h
  obtain ⟨_, -, h⟩ := bind_eq_ok_iff.mp h
  split_ifs at h with same bad
  simpa using bad

end StumpCompiler.Settings
