import StumpCompiler.Proofs.Except
import StumpCompiler.Proofs.Store.Path
import StumpCompiler.Store.Resolve

/-! The place that a path means is a matter of its text and of the working directory. The entries of
a store only say whether the path can be followed, and it still can when there are more of them. -/

namespace StumpCompiler.Store

/-- One name further; a dot stays and two dots go up. -/
def step (here : Place) (name : String) : Place :=
  if name = "." then here else if name = ".." then here.dropLast else here ++ [name]

/-- The place that a path means, whether anything is there or not. -/
def place (s : Store) (path : String) : Place :=
  (Path.parts path).foldl step (s.base path)

/-- A place on the way along a path. -/
def IsOnWay (s : Store) (path : String) (q : Place) : Prop :=
  ∃ ps, ps <+: Path.parts path ∧ q = ps.foldl step (s.base path)

def Target.place : Target → Place
  | .directory p => p
  | .name parent last _ => parent ++ [last]

/-- What is a directory in `s` is one in `s'`. -/
structure KeepsDirectories (s s' : Store) : Prop where
  workingDirectory : s'.workingDirectory = s.workingDirectory
  directory : ∀ q, s.find? q = some .directory → s'.find? q = some .directory

variable {s s' : Store} {here there : Place} {names : List String} {name path : String}

/-- Two names lead to one place at the root only. -/
theorem eq_of_step_eq {other : String} (same : step here name = step here other)
    (below : step here name ≠ []) : name = other := by
  have lengths := congrArg List.length same
  have positive := List.length_pos_iff.mpr below
  simp only [step] at same lengths positive
  split_ifs at same lengths positive with dot dot' dots' dots dot' dots' dot' dots'
  all_goals
    simp only [List.length_append, List.length_singleton, List.length_dropLast] at lengths positive
  · rw [dot, dot']
  · omega
  · omega
  · omega
  · rw [dots, dots']
  · omega
  · omega
  · omega
  · simpa using same

theorem foldl_step_filter (names : List String) (here : Place) :
    (names.filter (· ≠ ".")).foldl step here = names.foldl step here := by
  induction names generalizing here with
  | nil => rfl
  | cons name names ih =>
    by_cases dot : name = "."
    · simpa [dot, step] using ih here
    · simpa [List.filter_cons, dot] using ih (step here name)

theorem isOnWay_place (s : Store) (path : String) : s.IsOnWay path (s.place path) :=
  ⟨_, List.prefix_refl _, rfl⟩

theorem base_eq (same : s'.workingDirectory = s.workingDirectory) (path : String) :
    s'.base path = s.base path := by
  rw [base, base, same]

theorem place_eq (same : s'.workingDirectory = s.workingDirectory) (path : String) :
    s'.place path = s.place path := by
  rw [place, place, base_eq same]

theorem place_join (s : Store) (directory : String) (h : Path.IsPart name) :
    s.place (Path.join directory name) = step (s.place directory) name := by
  have base : s.base (Path.join directory name) = s.base directory := by
    rw [Store.base, Store.base, Path.isAbsolute_join directory h]
  rw [place, place, base, Path.parts_join directory h, List.foldl_append]
  rfl

/-- The paths that are made of the first naming parts of a path lead along it. -/
theorem isOnWay_ofParts (s : Store) {qs : List String} (filled : qs ≠ [])
    (h : qs <+: Path.namingParts path) :
    s.IsOnWay path (s.place (Path.ofParts (Path.isAbsolute path) qs)) := by
  have named : ∀ q ∈ qs, Path.IsPart q := fun q hq => Path.isPart_of_mem_namingParts (h.subset hq)
  obtain ⟨ps, ps_prefix, same⟩ := Path.exists_prefix_parts h
  refine ⟨ps, ps_prefix, ?_⟩
  obtain ⟨q, more, rfl⟩ := List.exists_cons_of_ne_nil filled
  have base : s.base (Path.ofParts (Path.isAbsolute path) (q :: more)) = s.base path := by
    rw [Store.base, Store.base, Path.isAbsolute_ofParts _ (named q (by simp))]
  rw [place, Path.parts_ofParts _ named, base, ← foldl_step_filter (q :: more), ← same,
    foldl_step_filter]

/-! Names. -/

theorem child_eq_ok_iff {e : Entry} :
    s.child here name = .ok e ↔
      name.utf8ByteSize ≤ maxNameSize ∧ s.find? (here ++ [name]) = some e := by
  rw [child]
  split_ifs with long
  · simp [Nat.not_le.mpr long]
  · cases s.find? (here ++ [name]) <;> simp [Nat.not_lt.mp long]

theorem child_eq_notFound_iff :
    s.child here name = .error .notFound ↔
      name.utf8ByteSize ≤ maxNameSize ∧ s.find? (here ++ [name]) = none := by
  rw [child]
  split_ifs with long
  · simp [Nat.not_le.mpr long]
  · cases s.find? (here ++ [name]) <;> simp [Nat.not_lt.mp long]

theorem walk_cons_eq_ok_iff :
    s.walk here (name :: names) = .ok there ↔
      s.walk (step here name) names = .ok there ∧
        (name ≠ "." → name ≠ ".." → s.child here name = .ok .directory) := by
  rw [walk, step]
  split_ifs with dot dots
  · simp [dot]
  · simp [dots]
  · split
    · next fault unreachable => simp [unreachable, dot, dots]
    · next found => simp [found]
    · next e other found =>
      have no_directory : e ≠ .directory := fun same => other (same ▸ rfl)
      simp [found, dot, dots, no_directory]

theorem walk_eq_ok (h : s.walk here names = .ok there) : there = names.foldl step here := by
  induction names generalizing here with
  | nil => exact (Except.ok.inj h).symm
  | cons name names ih => exact ih (walk_cons_eq_ok_iff.mp h).1

theorem walk_of_keepsDirectories (keeps : KeepsDirectories s s') (h : s.walk here names = .ok there) :
    s'.walk here names = .ok there := by
  induction names generalizing here with
  | nil => exact h
  | cons name names ih =>
    obtain ⟨rest, first⟩ := walk_cons_eq_ok_iff.mp h
    refine walk_cons_eq_ok_iff.mpr ⟨ih rest, fun dot dots => ?_⟩
    obtain ⟨short, found⟩ := child_eq_ok_iff.mp (first dot dots)
    exact child_eq_ok_iff.mpr ⟨short, keeps.directory _ found⟩

/-! Paths. -/

/-- What is found at the end of a path that can be followed. -/
def aim (here : Place) (last : String) (slash : Bool) : Target :=
  if last = "." then .directory here
  else if last = ".." then .directory here.dropLast
  else .name here last slash

theorem place_aim (here : Place) (last : String) (slash : Bool) :
    (aim here last slash).place = step here last := by
  rw [aim, step]
  split_ifs <;> rfl

/-- The target of a path that has parts, in terms of all of them but the last. -/
theorem target_eq_ok_iff {front : List String} {last : String} {t : Target}
    (parts : Path.parts path = front ++ [last]) :
    s.target path = .ok t ↔
      '\x00' ∉ path.toList ∧ path.utf8ByteSize ≤ maxPathSize ∧
        ∃ here, s.walk (s.base path) front = .ok here ∧ t = aim here last (Path.endsInSlash path) := by
  have filled : path ≠ "" := by
    rintro rfl
    have nothing : Path.parts "" = [] := rfl
    rw [nothing] at parts
    simp at parts
  rw [target, parts, List.getLast?_concat, List.dropLast_concat, if_neg filled]
  split_ifs with nul long
  · simp [List.contains_iff_mem.mp nul]
  · simp [Nat.not_le.mpr long]
  · have no_nul : '\x00' ∉ path.toList := by simpa using nul
    simp only [no_nul, Nat.not_lt.mp long, not_false_eq_true, true_and]
    rw [bind_eq_ok_iff]
    refine exists_congr fun here => and_congr_right fun _ => ?_
    rw [aim]
    split_ifs <;> simp [pure, Except.pure, eq_comm]

theorem target_of_parts_eq_nil {t : Target} (parts : Path.parts path = [])
    (h : s.target path = .ok t) : t = .directory (s.base path) := by
  rw [target, parts] at h
  split_ifs at h
  exact (Except.ok.inj h).symm

theorem place_of_target {t : Target} (h : s.target path = .ok t) : t.place = s.place path := by
  rcases List.eq_nil_or_concat' (Path.parts path) with parts | ⟨front, last, parts⟩
  · rw [target_of_parts_eq_nil parts h, place, parts]
    rfl
  · obtain ⟨-, -, here, walked, rfl⟩ := (target_eq_ok_iff parts).mp h
    rw [place_aim, place, parts, List.foldl_append, walk_eq_ok walked]
    rfl

theorem target_of_keepsDirectories {t : Target} (keeps : KeepsDirectories s s')
    (h : s.target path = .ok t) : s'.target path = .ok t := by
  have base := base_eq keeps.workingDirectory path
  rcases List.eq_nil_or_concat' (Path.parts path) with parts | ⟨front, last, parts⟩
  · rw [target, parts] at h ⊢
    rw [base]
    exact h
  · obtain ⟨no_nul, short, here, walked, eq⟩ := (target_eq_ok_iff parts).mp h
    refine (target_eq_ok_iff parts).mpr ⟨no_nul, short, here, ?_, eq⟩
    rw [base]
    exact walk_of_keepsDirectories keeps walked

end StumpCompiler.Store
