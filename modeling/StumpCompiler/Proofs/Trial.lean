import StumpCompiler.Proofs.Host

/-! A workspace on trial. Each step may be made to fail although the store would allow it: it does
nothing then, or it writes only the beginning of a file, as on a disk that is full. -/

namespace StumpCompiler

/-- What may go wrong in a step. -/
inductive Mishap where
  /-- The step does nothing. -/
  | refusal (cause : IoFault)
  /-- A file that is written gets only so many bytes. -/
  | breakOff (size : Nat) (cause : IoFault)
  deriving DecidableEq

def Mishap.cause : Mishap → IoFault
  | refusal cause => cause
  | breakOff _ cause => cause

structure Trial where
  workspace : Workspace
  /-- What becomes of the steps from now on, the next one first; `none`, and what is behind the end
  of the list, goes well. -/
  mishaps : List (Option Mishap)
  deriving DecidableEq

namespace Trial

/-- A step, or what is left of it if it goes wrong. -/
def attempt {α : Type} (step : StateM Workspace α) (wrong : Mishap → StateM Workspace α) :
    StateM Trial α := fun t =>
  let (a, w) := (match t.mishaps.head?.join with
    | none => step
    | some mishap => wrong mishap) t.workspace
  (a, ⟨w, t.mishaps.tail⟩)

/-- What is left of writing a file. -/
def writeWrong (path : String) (bytes : List UInt8) :
    Mishap → StateM Workspace (Except IoFault Unit)
  | .refusal cause => return .error cause
  | .breakOff size cause => do
    let _ ← Host.write path (bytes.take size)
    return .error cause

instance : Host (StateM Trial) where
  read path := attempt (Host.read path) fun mishap => return .error mishap.cause
  write path bytes := attempt (Host.write path bytes) (writeWrong path bytes)
  makeDirectory path := attempt (Host.makeDirectory path) fun mishap => return .error mishap.cause
  has path := attempt (Host.has path) fun _ => return false
  hasDirectory path := attempt (Host.hasDirectory path) fun _ => return false
  note r := fun t => ((), { t with workspace := ((Host.note r : StateM Workspace Unit) t.workspace).2 })

theorem attempt_cases {α : Type} {step : StateM Workspace α} {wrong : Mishap → StateM Workspace α}
    {P : α → Workspace → Prop} {t : Trial} (well : P (step t.workspace).1 (step t.workspace).2)
    (badly : ∀ mishap, P (wrong mishap t.workspace).1 (wrong mishap t.workspace).2) :
    P (attempt step wrong t).1 (attempt step wrong t).2.workspace := by
  unfold attempt
  cases t.mishaps.head?.join with
  | none => exact well
  | some mishap => exact badly mishap

theorem rewrites_writeWrong (path : String) (bytes : List UInt8) (mishap : Mishap) (w : Workspace) :
    w.store.Rewrites (w.store.place path) (writeWrong path bytes mishap w).2.store := by
  cases mishap with
  | refusal => exact .refl _ _
  | breakOff size => exact Store.rewrites_write w.store path (bytes.take size)

instance : Host.OnStore Trial where
  store t := t.workspace.store
  store_read path t := attempt_cases (P := fun _ w => w.store = t.workspace.store) rfl fun _ => rfl
  store_has path t := attempt_cases (P := fun _ w => w.store = t.workspace.store) rfl fun _ => rfl
  store_hasDirectory path t :=
    attempt_cases (P := fun _ w => w.store = t.workspace.store) rfl fun _ => rfl
  store_note _ _ := rfl
  grows_makeDirectory path t :=
    attempt_cases (P := fun _ w => t.workspace.store.Grows _ w.store)
      (Host.OnStore.grows_makeDirectory path t.workspace) fun _ => .refl _ _
  rewrites_write path bytes t :=
    attempt_cases (P := fun _ w => t.workspace.store.Rewrites _ w.store)
      (Host.OnStore.rewrites_write path bytes t.workspace)
      fun mishap => rewrites_writeWrong path bytes mishap t.workspace
  takes_write path bytes t :=
    attempt_cases (P := fun (result : Except IoFault Unit) w =>
        result = .ok () → bytes ≠ [] → w.store.HasTaken _ bytes)
      (Host.OnStore.takes_write path bytes t.workspace)
      fun mishap ok => by cases mishap <;> cases ok

end Trial

end StumpCompiler
