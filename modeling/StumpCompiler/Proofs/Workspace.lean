import Mathlib
import StumpCompiler.Generation
import StumpCompiler.Workspace

/-! What the steps of a run do to a store with a journal. -/

namespace StumpCompiler

/-- Steps that can fail, in a store with a journal. -/
abbrev Run := ExceptT Fault (StateM Workspace)

namespace Run

variable {σ α β : Type} {x : ExceptT Fault (StateM σ) α} {f : α → ExceptT Fault (StateM σ) β}
  {w w' : σ} {b : β} {e : Fault}

theorem bind_eq (x : ExceptT Fault (StateM σ) α) (f : α → ExceptT Fault (StateM σ) β) (w : σ) :
    (x >>= f) w = match x w with
      | (.ok a, v) => f a v
      | (.error e, v) => (.error e, v) := by
  change (match x w with | (r, v) => ExceptT.bindCont f r v) = _
  rcases x w with ⟨_ | a, v⟩ <;> rfl

/-- A run that ends well ends its first part well. -/
theorem bind_eq_ok_iff :
    (x >>= f) w = (.ok b, w') ↔ ∃ a v, x w = (.ok a, v) ∧ f a v = (.ok b, w') := by
  rw [bind_eq]
  rcases x w with ⟨_ | a, v⟩
  · constructor
    · intro h
      cases h
    · rintro ⟨_, _, h, -⟩
      cases h
  · constructor
    · exact fun h => ⟨a, v, rfl, h⟩
    · rintro ⟨_, _, ⟨⟩, h⟩
      exact h

/-- A run fails in its first part or behind it. -/
theorem bind_eq_error_iff :
    (x >>= f) w = (.error e, w') ↔
      x w = (.error e, w') ∨ ∃ a v, x w = (.ok a, v) ∧ f a v = (.error e, w') := by
  rw [bind_eq]
  rcases x w with ⟨_ | a, v⟩
  · constructor
    · rintro ⟨⟩
      exact .inl rfl
    · rintro (⟨⟨⟩⟩ | ⟨_, _, ⟨⟩, -⟩)
      rfl
  · constructor
    · exact fun h => .inr ⟨a, v, rfl, h⟩
    · rintro (⟨⟨⟩⟩ | ⟨_, _, ⟨⟩, h⟩)
      exact h

/-- A part that cannot fail is run for its result and for what it does to the workspace. -/
theorem lift_bind_eq (x : StateM σ α) (f : α → ExceptT Fault (StateM σ) β) (w : σ) :
    ((liftM x : ExceptT Fault (StateM σ) α) >>= f) w = f (x w).1 (x w).2 :=
  rfl

theorem mk_pure_eq_iff {x r : Except Fault α} :
    (ExceptT.mk (pure x) : ExceptT Fault (StateM σ) α) w = (r, w') ↔ x = r ∧ w' = w := by
  constructor
  · intro h
    exact ⟨(Prod.ext_iff.mp h).1, (Prod.ext_iff.mp h).2.symm⟩
  · rintro ⟨rfl, rfl⟩
    rfl

end Run

namespace Workspace

def noted (w : Workspace) (records : List Record) : Workspace :=
  { w with journal := w.journal ++ records }

theorem noteAll_eq (records : List Record) (w : Workspace) :
    (Host.noteAll records : StateM Workspace Unit) w = ((), w.noted records) := by
  induction records generalizing w with
  | nil => simp [Host.noteAll, noted]; rfl
  | cons r records ih =>
    have step : (Host.noteAll (r :: records) : StateM Workspace Unit) w =
        (Host.noteAll records : StateM Workspace Unit) (w.noted [r]) := rfl
    rw [step, ih]
    simp [noted]

end Workspace

namespace Generation

theorem readModel_eq (path : String) (w : Workspace) :
    (readModel path : Run Model) w =
      match w.store.read path with
      | .error fault => (.error (.io fault), w)
      | .ok bytes => (Reader.ofBytes bytes, w.noted (Reader.byteRecords path bytes)) := by
  have read : (Host.read path : StateM Workspace (Except IoFault (List UInt8))) w =
      (w.store.read path, w) := rfl
  rw [readModel, Run.lift_bind_eq, read]
  cases w.store.read path with
  | error fault => rfl
  | ok bytes =>
    simp only [Run.lift_bind_eq, Workspace.noteAll_eq]
    rfl

end Generation

end StumpCompiler
