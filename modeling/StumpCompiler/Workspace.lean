import StumpCompiler.Host
import StumpCompiler.Store.Files

/-!
A store with a journal: surroundings in which runs can be reasoned about and replayed.
-/

namespace StumpCompiler

structure Workspace where
  store : Store
  /-- The records so far, the first one first. -/
  journal : List Record
  deriving DecidableEq

namespace Workspace

def initial : Workspace := ⟨.initial, []⟩

/-- Does something to the store. -/
def change {α : Type} (f : Store → α × Store) : StateM Workspace α :=
  fun w => let (a, s) := f w.store; (a, { w with store := s })

instance : Host (StateM Workspace) where
  read path := fun w => (w.store.read path, w)
  write path bytes := change fun s => s.write path bytes
  makeDirectory path := change fun s => s.makeDirectory path
  has path := fun w => (w.store.has path, w)
  hasDirectory path := fun w => (w.store.hasDirectory path, w)
  note r := fun w => ((), { w with journal := w.journal ++ [r] })

end Workspace

end StumpCompiler
