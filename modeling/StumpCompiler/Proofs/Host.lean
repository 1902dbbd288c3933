import StumpCompiler.Proofs.Store.Files
import StumpCompiler.Workspace

/-! What hosts do to their stores. A step changes at most the entry that its path means, whether it
succeeds or not; making a directory with those above it adds directories on the way to it. -/

namespace StumpCompiler.Host

/-- A host with a store that only its own steps change: looking, reading and noting leave it as it
is, and a path that is made or written changes at most its own entry. A step may fail for any
reason, and a file that is written may be broken off anywhere. -/
class OnStore (σ : Type) [Host (StateM σ)] where
  store : σ → Store
  store_read (path : String) (w : σ) :
    store ((read path : StateM σ (Except IoFault (List UInt8))) w).2 = store w
  store_has (path : String) (w : σ) : store ((has path : StateM σ Bool) w).2 = store w
  store_hasDirectory (path : String) (w : σ) :
    store ((hasDirectory path : StateM σ Bool) w).2 = store w
  store_note (r : Record) (w : σ) : store ((note r : StateM σ Unit) w).2 = store w
  grows_makeDirectory (path : String) (w : σ) :
    (store w).Grows (· = (store w).place path)
      (store ((makeDirectory path : StateM σ (Except IoFault Unit)) w).2)
  rewrites_write (path : String) (bytes : List UInt8) (w : σ) :
    (store w).Rewrites ((store w).place path)
      (store ((write path bytes : StateM σ (Except IoFault Unit)) w).2)
  takes_write (path : String) (bytes : List UInt8) (w : σ) :
    ((write path bytes : StateM σ (Except IoFault Unit)) w).1 = .ok () → bytes ≠ [] →
      (store ((write path bytes : StateM σ (Except IoFault Unit)) w).2).HasTaken
        ((store w).place path) bytes

export OnStore (store)

instance : OnStore Workspace where
  store := Workspace.store
  store_read _ _ := rfl
  store_has _ _ := rfl
  store_hasDirectory _ _ := rfl
  store_note _ _ := rfl
  grows_makeDirectory _ _ := Store.grows_makeDirectory rfl
  rewrites_write path bytes w := Store.rewrites_write w.store path bytes
  takes_write _ _ _ := Store.hasTaken_of_write_eq_ok

variable {σ : Type} [Host (StateM σ)] [OnStore σ]

theorem store_noteAll (records : List Record) (w : σ) :
    store ((noteAll records : StateM σ Unit) w).2 = store w := by
  induction records generalizing w with
  | nil => rfl
  | cons r records ih =>
    have first : store ((note r : StateM σ Unit) w).2 = store w := OnStore.store_note r w
    exact (ih _).trans first

/-- In the working directory `working`, the steps make only directories at places that are
`allowed`. -/
def GrowsBy {α : Type} (working : Place) (allowed : Place → Prop) (x : StateM σ α) : Prop :=
  ∀ w : σ, (store w).workingDirectory = working → (store w).Grows allowed (store (x w).2)

/-- In the working directory `working`, the path means a place that is `allowed`. -/
def IsAllowed (working : Place) (allowed : Place → Prop) (path : String) : Prop :=
  ∀ s : Store, s.workingDirectory = working → allowed (s.place path)

variable {α β : Type} {working : Place} {allowed : Place → Prop} {path : String}

theorem GrowsBy.same {x : StateM σ α} (h : ∀ w, store (x w).2 = store w) :
    GrowsBy working allowed x := by
  intro w _
  rw [h w]
  exact .refl allowed _

theorem GrowsBy.bind {x : StateM σ α} {f : α → StateM σ β}
    (first : GrowsBy working allowed x) (next : ∀ a, GrowsBy working allowed (f a)) :
    GrowsBy working allowed (x >>= f) := by
  intro w hw
  have grown := first w hw
  exact grown.trans (next (x w).1 (x w).2 (grown.workingDirectory.trans hw))

theorem growsBy_makeDirectory (ok : IsAllowed working allowed path) :
    GrowsBy working allowed (makeDirectory path : StateM σ (Except IoFault Unit)) := by
  intro w hw
  refine (OnStore.grows_makeDirectory path w).mono fun q here => ?_
  exact here ▸ ok (store w) hw

theorem growsBy_settle (path : String) (result : Except IoFault Unit) :
    GrowsBy working allowed (settle path result : StateM σ (Except IoFault Unit)) := by
  cases result with
  | ok => exact .same fun _ => rfl
  | error fault =>
    refine .bind (.same (OnStore.store_hasDirectory path)) fun there => ?_
    split
    · exact .same fun _ => rfl
    · exact .same fun _ => rfl

theorem growsBy_makeWith {above : StateM σ (Except IoFault Unit)}
    (ok : IsAllowed working allowed path) (h : GrowsBy working allowed above) :
    GrowsBy working allowed (makeWith above path) := by
  refine .bind (growsBy_makeDirectory ok) fun result => ?_
  split
  · refine .bind h fun result => ?_
    split
    · exact .same fun _ => rfl
    · exact .bind (growsBy_makeDirectory ok) fun result => growsBy_settle path result
  · exact growsBy_settle path _

theorem growsBy_makeNamed (absolute : Bool) (parts : List String)
    (ok : ∀ ps, ps ≠ [] → ps <:+ parts →
      IsAllowed working allowed (Path.ofParts absolute ps.reverse)) :
    GrowsBy working allowed (makeNamed absolute parts : StateM σ (Except IoFault Unit)) := by
  induction parts with
  | nil => exact .same fun _ => rfl
  | cons part above ih =>
    refine growsBy_makeWith (ok _ (by simp) (List.suffix_refl _)) (ih fun ps filled h => ?_)
    exact ok ps filled (h.trans (List.suffix_cons part above))

theorem grows_makeDirectories (w : σ) (path : String) :
    (store w).Grows ((store w).IsOnWay path)
      (store ((makeDirectories path : StateM σ (Except IoFault Unit)) w).2) := by
  have same {s : Store} (hs : s.workingDirectory = (store w).workingDirectory) {q : Place}
      (h : s.IsOnWay path q) : (store w).IsOnWay path q := by
    rw [Store.IsOnWay, ← Store.base_eq hs path]
    exact h
  refine growsBy_makeWith (fun s hs => same hs (s.isOnWay_place path)) ?_ w rfl
  refine growsBy_makeNamed _ _ fun ps filled h s hs => same hs (s.isOnWay_ofParts (by simpa) ?_)
  have tail : ps <:+ (Path.namingParts path).reverse := h.trans (List.tail_suffix _)
  simpa using List.reverse_prefix.mpr tail

end StumpCompiler.Host
