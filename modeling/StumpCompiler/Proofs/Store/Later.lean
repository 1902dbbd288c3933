import StumpCompiler.Proofs.Store.Files

/-! What a path leads to does not change as long as the directories stay and nothing happens at its
place. In particular what has been written can be written again, and that changes nothing. -/

namespace StumpCompiler.Store

variable {s s' s'' : Store} {path directory name : String} {p here : Place}
  {names : List String} {bytes : List UInt8} {allowed : Place → Prop}

/-! Directories stay. -/

theorem KeepsDirectories.trans (h : KeepsDirectories s s') (h' : KeepsDirectories s' s'') :
    KeepsDirectories s s'' :=
  ⟨h'.workingDirectory.trans h.workingDirectory, fun q => h'.directory q ∘ h.directory q⟩

theorem Grows.keepsDirectories (h : Grows allowed s s') : KeepsDirectories s s' :=
  ⟨h.workingDirectory, fun q => h.kept q .directory⟩

theorem Rewrites.keepsDirectories (h : Rewrites p s s') : KeepsDirectories s s' := by
  refine ⟨h.workingDirectory, fun q found => ?_⟩
  by_cases here : q = p
  · subst here
    rcases h.here with same | ⟨free | ⟨old, file⟩, -⟩
    · exact same.trans found
    · simp [found] at free
    · simp [found] at file
  · rw [h.others q here]
    exact found

/-! The directory to which a path leads. -/

theorem walk_concat_eq_ok_iff :
    s.walk here (names ++ [name]) = .ok p ↔
      ∃ mid, s.walk here names = .ok mid ∧ p = step mid name ∧
        (name ≠ "." → name ≠ ".." → s.child mid name = .ok .directory) := by
  induction names generalizing here with
  | nil =>
    rw [List.nil_append, walk_cons_eq_ok_iff]
    simp [walk, eq_comm]
  | cons first names ih =>
    rw [List.cons_append, walk_cons_eq_ok_iff, ih]
    simp only [walk_cons_eq_ok_iff]
    constructor
    · rintro ⟨⟨mid, rest, last⟩, first⟩
      exact ⟨mid, ⟨rest, first⟩, last⟩
    · rintro ⟨mid, ⟨rest, first⟩, last⟩
      exact ⟨⟨mid, rest, last⟩, first⟩

/-- What is at the end of a path that can be followed. -/
def atEnd (s : Store) : Target → Except IoFault (Place × Entry)
  | .directory place => .ok (place, .directory)
  | .name parent name slash => do
    let e ← s.child parent name
    if slash && e ≠ .directory then .error .notDirectory
    else return (parent ++ [name], e)

theorem resolve_eq_ok_iff {r : Place × Entry} :
    s.resolve path = .ok r ↔ ∃ t, s.target path = .ok t ∧ s.atEnd t = .ok r := by
  have parts : s.resolve path = s.target path >>= s.atEnd := rfl
  rw [parts, bind_eq_ok_iff]

theorem atEnd_name_eq_ok_iff {e : Entry} {slash : Bool} :
    s.atEnd (.name here name slash) = .ok (p, e) ↔
      s.child here name = .ok e ∧ p = here ++ [name] ∧ (slash → e = .directory) := by
  rw [atEnd, bind_eq_ok_iff]
  constructor
  · rintro ⟨d, found, h⟩
    split_ifs at h with refused
    obtain ⟨rfl, rfl⟩ := Prod.ext_iff.mp (Except.ok.inj h)
    refine ⟨found, rfl, ?_⟩
    simpa using refused
  · rintro ⟨found, rfl, named⟩
    refine ⟨e, found, if_neg ?_⟩
    simpa using named

theorem atEnd_aim_eq_directory_iff {slash : Bool} :
    s.atEnd (aim here name slash) = .ok (p, .directory) ↔
      p = step here name ∧
        (name ≠ "." → name ≠ ".." → s.child here name = .ok .directory) := by
  rw [aim, step]
  split_ifs with dot dots
  · simp [atEnd, dot, eq_comm]
  · simp [atEnd, dots, eq_comm]
  · rw [atEnd_name_eq_ok_iff]
    simp [dot, dots, and_comm]

theorem resolve_eq_directory_iff (filled : path ≠ "") :
    s.resolve path = .ok (p, .directory) ↔
      '\x00' ∉ path.toList ∧ path.utf8ByteSize ≤ maxPathSize ∧
        s.walk (s.base path) (Path.parts path) = .ok p := by
  rw [resolve_eq_ok_iff]
  rcases List.eq_nil_or_concat' (Path.parts path) with parts | ⟨front, last, parts⟩
  · rw [parts, target, parts, if_neg filled]
    split_ifs with nul long
    · simp [List.contains_iff_mem.mp nul]
    · simp [Nat.not_le.mpr long]
    · simp [show '\x00' ∉ path.toList by simpa using nul, Nat.not_lt.mp long, walk, atEnd]
  · rw [parts, walk_concat_eq_ok_iff]
    constructor
    · rintro ⟨t, aimed, found⟩
      obtain ⟨no_nul, short, here, walked, rfl⟩ := (target_eq_ok_iff parts).mp aimed
      exact ⟨no_nul, short, here, walked, atEnd_aim_eq_directory_iff.mp found⟩
    · rintro ⟨no_nul, short, here, walked, found⟩
      exact ⟨_, (target_eq_ok_iff parts).mpr ⟨no_nul, short, here, walked, rfl⟩,
        atEnd_aim_eq_directory_iff.mpr found⟩

/-- The directories of a path that was joined lead to the first part of it. -/
theorem resolve_of_target_join (h : Path.IsPart name) (filled : directory ≠ "") {t : Target}
    (aimed : s.target (Path.join directory name) = .ok t) :
    s.resolve directory = .ok (s.place directory, .directory) := by
  obtain ⟨rest, eq⟩ := Path.exists_join_eq filled h
  obtain ⟨no_nul, short, here, walked, -⟩ :=
    (target_eq_ok_iff (Path.parts_join directory h)).mp aimed
  have base : s.base (Path.join directory name) = s.base directory := by
    rw [Store.base, Store.base, Path.isAbsolute_join directory h]
  rw [base] at walked
  rw [eq, String.toList_append, List.mem_append, not_or] at no_nul
  rw [eq, String.utf8ByteSize_append] at short
  rw [resolve_eq_directory_iff filled, place, ← walk_eq_ok walked]
  exact ⟨no_nul.1, by omega, walked⟩

theorem target_join (h : Path.IsPart name)
    (walked : s.walk (s.base directory) (Path.parts directory) = .ok here)
    (no_nul : '\x00' ∉ (Path.join directory name).toList)
    (short : (Path.join directory name).utf8ByteSize ≤ maxPathSize) :
    s.target (Path.join directory name) = .ok (aim here name false) := by
  apply (target_eq_ok_iff (Path.parts_join directory h)).mpr
  have base : s.base (Path.join directory name) = s.base directory := by
    rw [Store.base, Store.base, Path.isAbsolute_join directory h]
  rw [base, Path.endsInSlash_join directory h]
  exact ⟨no_nul, short, here, walked, rfl⟩

theorem hasDirectory_iff :
    s.hasDirectory path ↔ path ≠ "" ∧ '\x00' ∉ path.toList ∧ path.utf8ByteSize ≤ maxPathSize ∧
      s.walk (s.base path) (Path.parts path) = .ok (s.place path) := by
  have resolves : s.hasDirectory path ↔ ∃ p, s.resolve path = .ok (p, .directory) := by
    rw [hasDirectory]
    split
    · next p found => simp [found]
    · next other =>
      constructor
      · simp
      · rintro ⟨p, found⟩
        exact absurd found (other p)
  rw [resolves]
  constructor
  · rintro ⟨p, found⟩
    have filled : path ≠ "" := by
      rintro rfl
      contradiction
    obtain ⟨no_nul, short, walked⟩ := (resolve_eq_directory_iff filled).mp found
    rw [walked, place, walk_eq_ok walked]
    exact ⟨filled, no_nul, short, rfl⟩
  · rintro ⟨filled, found⟩
    exact ⟨_, (resolve_eq_directory_iff filled).mpr found⟩

theorem has_of_hasDirectory (there : s.hasDirectory path) : s.has path := by
  rw [hasDirectory] at there
  split at there
  · next p found => rw [has, found]
  · contradiction

/-! What a path leads to in a later store. -/

theorem KeepsDirectories.hasDirectory (h : KeepsDirectories s s') (there : s.hasDirectory path) :
    s'.hasDirectory path := by
  obtain ⟨filled, no_nul, short, walked⟩ := hasDirectory_iff.mp there
  rw [← base_eq h.workingDirectory path, ← place_eq h.workingDirectory path] at walked
  exact hasDirectory_iff.mpr ⟨filled, no_nul, short, walk_of_keepsDirectories h walked⟩

/-- `s'` has the directories of `s`, and at the place of the path what `s` has there. -/
structure KeepsPath (path : String) (s s' : Store) : Prop where
  directories : KeepsDirectories s s'
  here : s'.find? (s.place path) = s.find? (s.place path)

theorem KeepsPath.child (h : KeepsPath path s s') (place : here ++ [name] = s.place path) :
    s'.child here name = s.child here name := by
  rw [Store.child, Store.child, place, h.here]

theorem KeepsPath.resolve {r : Place × Entry} (h : KeepsPath path s s')
    (found : s.resolve path = .ok r) : s'.resolve path = .ok r := by
  obtain ⟨t, aimed, found⟩ := resolve_eq_ok_iff.mp found
  refine resolve_eq_ok_iff.mpr ⟨t, target_of_keepsDirectories h.directories aimed, ?_⟩
  cases t with
  | directory place => exact found
  | name parent name slash =>
    rw [atEnd, h.child (place_of_target aimed)]
    exact found

theorem KeepsPath.read (h : KeepsPath path s s') (found : s.read path = .ok bytes) :
    s'.read path = .ok bytes := by
  obtain ⟨r, resolved, content⟩ := bind_eq_ok_iff.mp found
  rw [Store.read, h.resolve resolved]
  exact content

theorem KeepsDirectories.isFilePath (h : KeepsDirectories s s') (file : s.IsFilePath path)
    (free : s'.find? (s.place path) ≠ some .directory) : s'.IsFilePath path := by
  obtain ⟨parent, name, aimed, short, place⟩ := file.aimed
  have same := place_eq h.workingDirectory path
  constructor
  · exact ⟨parent, name, target_of_keepsDirectories h aimed, short, same.trans place⟩
  · rw [same]
    exact free

/-- Only what is there can be read. -/
theorem ne_none_of_read (h : s.read path = .ok bytes) : s.find? (s.place path) ≠ none := by
  obtain ⟨⟨p, e⟩, resolved, content⟩ := bind_eq_ok_iff.mp h
  obtain ⟨t, aimed, found⟩ := resolve_eq_ok_iff.mp resolved
  cases t with
  | directory place =>
    obtain ⟨-, rfl⟩ := Prod.ext_iff.mp (Except.ok.inj found)
    contradiction
  | name parent name slash =>
    obtain ⟨present, -⟩ := atEnd_name_eq_ok_iff.mp found
    have place : parent ++ [name] = s.place path := place_of_target aimed
    rw [← place, (child_eq_ok_iff.mp present).2]
    simp

/-- The path leads to a file with this content. -/
def HoldsFile (s : Store) (path : String) (bytes : List UInt8) : Prop :=
  s.resolve path = .ok (s.place path, .file bytes)

instance (s : Store) (path : String) (bytes : List UInt8) : Decidable (s.HoldsFile path bytes) :=
  inferInstanceAs (Decidable (_ = _))

theorem holdsFile_iff :
    s.HoldsFile path bytes ↔ s.IsFilePath path ∧ s.find? (s.place path) = some (.file bytes) := by
  rw [HoldsFile, resolve_eq_ok_iff]
  constructor
  · rintro ⟨t, aimed, found⟩
    cases t with
    | directory place => simp [atEnd] at found
    | name parent name slash =>
      obtain ⟨present, place, no_slash⟩ := atEnd_name_eq_ok_iff.mp found
      obtain ⟨short, file⟩ := child_eq_ok_iff.mp present
      obtain rfl : slash = false := by simpa using no_slash
      rw [← place] at file
      exact ⟨⟨⟨parent, name, aimed, short, place⟩, by simp [file]⟩, file⟩
  · rintro ⟨⟨⟨parent, name, aimed, short, place⟩, -⟩, file⟩
    refine ⟨_, aimed, atEnd_name_eq_ok_iff.mpr ⟨?_, place, by simp⟩⟩
    exact child_eq_ok_iff.mpr ⟨short, place ▸ file⟩

/-- A file path leads to what is at its place later on. -/
theorem HoldsFile.later {new : List UInt8} (h : s.HoldsFile path bytes)
    (keeps : KeepsDirectories s s') (file : s'.find? (s.place path) = some (.file new)) :
    s'.HoldsFile path new := by
  obtain ⟨aimed, -⟩ := holdsFile_iff.mp h
  apply holdsFile_iff.mpr
  rw [place_eq keeps.workingDirectory]
  exact ⟨keeps.isFilePath aimed (by simp [file]), file⟩

/-! Writing once more. -/

theorem isFilePath_of_write (h : (s.write path bytes).1 = .ok ()) : s.IsFilePath path := by
  unfold write at h
  split at h
  · contradiction
  · contradiction
  · next parent name slash aimed =>
    have place : parent ++ [name] = s.place path := place_of_target aimed
    cases slash with
    | true => contradiction
    | false =>
      rw [if_neg (by simp)] at h
      have there : name.utf8ByteSize ≤ maxNameSize ∧
          s.find? (parent ++ [name]) ≠ some .directory := by
        split at h
        · next missing => simp [child_eq_notFound_iff.mp missing]
        · next present => simp [child_eq_ok_iff.mp present]
        · contradiction
        · contradiction
        · next present => simp [child_eq_ok_iff.mp present]
        · next present => simp [child_eq_ok_iff.mp present]
      exact ⟨⟨parent, name, aimed, there.1, place.symm⟩, place ▸ there.2⟩

/-- What writing does depends on the entry that is there. -/
theorem write_of_isFilePath (file : s.IsFilePath path) (bytes : List UInt8) :
    s.write path bytes = match s.find? (s.place path) with
      | some .nullDevice => (.ok (), s)
      | some .fullDevice => (if bytes = [] then .ok () else .error .noSpace, s)
      | _ => (.ok (), s.put (s.place path) (.file bytes)) := by
  obtain ⟨parent, name, aimed, short, place⟩ := file.aimed
  have no_directory := file.no_directory
  rw [place] at no_directory ⊢
  rw [write, aimed]
  cases found : s.find? (parent ++ [name]) with
  | none => simp [child_eq_notFound_iff.mpr ⟨short, found⟩]
  | some e =>
    have child : s.child parent name = .ok e := child_eq_ok_iff.mpr ⟨short, found⟩
    cases e with
    | directory => exact absurd found no_directory
    | _ => simp [child]

theorem find?_written (file : s.IsFilePath path) (bytes : List UInt8) :
    (s.put (s.place path) (.file bytes)).find? (s.place path) = some (.file bytes) := by
  rw [(isWritten_put file bytes).find?, if_pos rfl]

/-- The entry of a file path is what writing the bytes makes of it. -/
theorem write_eq_self_iff :
    s.write path bytes = (.ok (), s) ↔
      s.IsFilePath path ∧ (s.find? (s.place path) = some (.file bytes) ∨
        s.find? (s.place path) = some .nullDevice ∨
        s.find? (s.place path) = some .fullDevice ∧ bytes = []) := by
  constructor
  · intro h
    have file : s.IsFilePath path := isFilePath_of_write (by rw [h])
    refine ⟨file, ?_⟩
    rw [write_of_isFilePath file] at h
    split at h
    · next device => exact .inr (.inl device)
    · next device => exact .inr (.inr ⟨device, by simpa using h⟩)
    · have same : s.put (s.place path) (.file bytes) = s := (Prod.ext_iff.mp h).2
      have written := find?_written file bytes
      rw [same] at written
      exact .inl written
  · rintro ⟨file, there⟩
    rw [write_of_isFilePath file]
    rcases there with there | there | ⟨there, rfl⟩ <;> simp only [there]
    · rw [put_eq_self (ne_nil_of_find? file.no_directory) there]
    · rfl

/-- Writing somewhere does not take away a place for a file. -/
theorem Rewrites.canWrite (h : Rewrites p s s') (can : s.CanWrite path) : s'.CanWrite path := by
  have writable : s'.IsWritable (s.place path) := by
    by_cases here : s.place path = p
    · rcases h.here with same | ⟨-, file⟩
      · rw [IsWritable, here, same, ← here]
        exact can.writable
      · exact .inr (here ▸ file)
    · rw [IsWritable, h.others _ here]
      exact can.writable
  have no_directory : s'.find? (s.place path) ≠ some .directory := by
    rcases writable with free | ⟨old, file⟩
    · simp [free]
    · simp [file]
  refine ⟨h.keepsDirectories.isFilePath can.file no_directory, ?_⟩
  rw [place_eq h.workingDirectory]
  exact writable

/-- What was written may be written again. -/
theorem write_again (h : s.write path bytes = (.ok (), s')) :
    s'.write path bytes = (.ok (), s') := by
  rcases write_cases s path bytes with ⟨file, -, eq⟩ | ⟨same, -⟩
  · obtain rfl : s.put (s.place path) (.file bytes) = s' := (Prod.ext_iff.mp (eq.symm.trans h)).2
    have written := find?_written file bytes
    have keeps := (isWritten_put file bytes).keepsDirectories
    exact write_eq_self_iff.mpr ⟨keeps.isFilePath file (by simp [written]), .inl written⟩
  · obtain rfl : s = s' := by rw [← same, h]
    exact h

/-- What changes nothing now changes nothing later either. -/
theorem KeepsPath.write (keeps : KeepsPath path s s') (h : s.write path bytes = (.ok (), s)) :
    s'.write path bytes = (.ok (), s') := by
  obtain ⟨file, there⟩ := write_eq_self_iff.mp h
  rw [← keeps.here] at there
  refine write_eq_self_iff.mpr ⟨keeps.directories.isFilePath file ?_, ?_⟩
  · rw [keeps.here]
    exact file.no_directory
  · rw [place_eq keeps.directories.workingDirectory]
    exact there

end StumpCompiler.Store
