import StumpCompiler.Proofs.Store.Resolve
import StumpCompiler.Store.Files

/-! What making a directory and writing a file do to the entries of a store. -/

namespace StumpCompiler.Store

/-- `s'` has the entries of `s`, and beyond them only directories at places that are `allowed`. -/
structure Grows (allowed : Place → Prop) (s s' : Store) : Prop where
  workingDirectory : s'.workingDirectory = s.workingDirectory
  kept : ∀ q e, s.find? q = some e → s'.find? q = some e
  made : ∀ q, s.find? q = none → s'.find? q ≠ none → s'.find? q = some .directory ∧ allowed q

variable {allowed : Place → Prop} {s s' s'' : Store} {path : String} {p : Place}
  {bytes : List UInt8}

theorem Grows.refl (allowed : Place → Prop) (s : Store) : Grows allowed s s :=
  ⟨rfl, fun _ _ found => found, fun _ free taken => absurd free taken⟩

theorem Grows.trans (h : Grows allowed s s') (h' : Grows allowed s' s'') : Grows allowed s s'' := by
  refine ⟨h'.workingDirectory.trans h.workingDirectory, fun q e found => ?_, fun q free taken => ?_⟩
  · exact h'.kept q e (h.kept q e found)
  · by_cases free' : s'.find? q = none
    · exact h'.made q free' taken
    · obtain ⟨directory, ok⟩ := h.made q free free'
      exact ⟨h'.kept q _ directory, ok⟩

theorem Grows.mono {allowed' : Place → Prop} (h : Grows allowed s s')
    (more : ∀ q, allowed q → allowed' q) : Grows allowed' s s' :=
  ⟨h.workingDirectory, h.kept, fun q free taken => (h.made q free taken).imp_right (more q)⟩

theorem Grows.find?_ne (h : Grows allowed s s') {e : Entry} (other : e ≠ .directory)
    (absent : s.find? p ≠ some e) : s'.find? p ≠ some e := by
  intro present
  cases found : s.find? p with
  | none =>
    have directory := (h.made p found (by simp [present])).1
    rw [present] at directory
    exact other (Option.some.inj directory)
  | some d =>
    rw [h.kept p d found] at present
    exact absent (found.trans present)

theorem KeepsDirectories.refl (s : Store) : KeepsDirectories s s :=
  ⟨rfl, fun _ => id⟩

theorem ne_nil_of_find? (h : s.find? p ≠ some .directory) : p ≠ [] := by
  rintro rfl
  exact h rfl

/-! Making a directory. -/

theorem grows_put_directory (free : s.find? p = none) (ok : allowed p) :
    Grows allowed s (s.put p .directory) := by
  have ne_nil : p ≠ [] := ne_nil_of_find? (s := s) (by simp [free])
  refine ⟨rfl, fun q e found => ?_, fun q free' taken => ?_⟩
  · rw [find?_put s p q _ ne_nil, if_neg]
    · exact found
    · rintro rfl
      rw [free] at found
      contradiction
  · rw [find?_put s p q _ ne_nil] at taken ⊢
    by_cases same : q = p
    · exact ⟨if_pos same, same ▸ ok⟩
    · rw [if_neg same] at taken
      exact absurd free' taken

theorem grows_makeDirectory (ok : allowed (s.place path)) :
    Grows allowed s (s.makeDirectory path).2 := by
  unfold makeDirectory
  split
  · exact .refl allowed s
  · exact .refl allowed s
  · next parent name slash aimed =>
    have place : parent ++ [name] = s.place path := place_of_target aimed
    split
    · next missing =>
      rw [place]
      exact grows_put_directory (place ▸ (child_eq_notFound_iff.mp missing).2) ok
    · exact .refl allowed s
    · exact .refl allowed s

/-! Writing a file. -/

/-- A path leads by a name of its own to an entry that is not a directory, or to none. -/
structure IsFilePath (s : Store) (path : String) : Prop where
  aimed : ∃ parent name, s.target path = .ok (.name parent name false) ∧
    name.utf8ByteSize ≤ maxNameSize ∧ s.place path = parent ++ [name]
  no_directory : s.find? (s.place path) ≠ some .directory

/-- The file of a path is written anew, and every other entry is as it was. -/
structure IsWritten (path : String) (bytes : List UInt8) (s s' : Store) : Prop where
  file : s.IsFilePath path
  workingDirectory : s'.workingDirectory = s.workingDirectory
  find? : ∀ q, s'.find? q = if q = s.place path then some (.file bytes) else s.find? q

theorem isWritten_put (file : s.IsFilePath path) (bytes : List UInt8) :
    IsWritten path bytes s (s.put (s.place path) (.file bytes)) :=
  ⟨file, rfl, fun q => find?_put _ _ q _ (ne_nil_of_find? file.no_directory)⟩

/-- Nothing is there yet, or a file. -/
def IsWritable (s : Store) (p : Place) : Prop :=
  s.find? p = none ∨ ∃ old, s.find? p = some (.file old)

/-- Writing puts a file where a file can be, or changes nothing; then only a device has taken the
bytes. -/
theorem write_cases (s : Store) (path : String) (bytes : List UInt8) :
    (s.IsFilePath path ∧ s.IsWritable (s.place path) ∧
        s.write path bytes = (.ok (), s.put (s.place path) (.file bytes))) ∨
      ((s.write path bytes).2 = s ∧ ((s.write path bytes).1 = .ok () →
        s.find? (s.place path) = some .nullDevice ∨
          bytes = [] ∧ s.find? (s.place path) = some .fullDevice)) := by
  unfold write
  split
  · exact .inr ⟨rfl, by simp⟩
  · exact .inr ⟨rfl, by simp⟩
  · next parent name slash aimed =>
    have place : parent ++ [name] = s.place path := place_of_target aimed
    cases slash with
    | true => exact .inr ⟨rfl, by simp⟩
    | false =>
      rw [if_neg (by simp), place]
      split
      · next missing =>
        obtain ⟨short, free⟩ := child_eq_notFound_iff.mp missing
        rw [place] at free
        exact .inl ⟨⟨⟨parent, name, aimed, short, place.symm⟩, by simp [free]⟩, .inl free, rfl⟩
      · next old present =>
        obtain ⟨short, found⟩ := child_eq_ok_iff.mp present
        rw [place] at found
        exact .inl ⟨⟨⟨parent, name, aimed, short, place.symm⟩, by simp [found]⟩,
          .inr ⟨old, found⟩, rfl⟩
      · exact .inr ⟨rfl, by simp⟩
      · exact .inr ⟨rfl, by simp⟩
      · next present => exact .inr ⟨rfl, fun _ => .inl (place ▸ (child_eq_ok_iff.mp present).2)⟩
      · next present =>
        refine .inr ⟨rfl, fun ok => .inr ⟨?_, place ▸ (child_eq_ok_iff.mp present).2⟩⟩
        by_contra filled
        simp [filled] at ok

/-- A file can be written at the end of a path: its directories are there, and no directory and no
device stands in its place. -/
structure CanWrite (s : Store) (path : String) : Prop where
  file : s.IsFilePath path
  writable : s.IsWritable (s.place path)

theorem CanWrite.write_eq (h : s.CanWrite path) (bytes : List UInt8) :
    s.write path bytes = (.ok (), s.put (s.place path) (.file bytes)) := by
  obtain ⟨parent, name, aimed, short, place⟩ := h.file.aimed
  have writable := h.writable
  rw [place] at writable ⊢
  rw [write, aimed]
  rcases writable with free | ⟨old, found⟩
  · simp [child_eq_notFound_iff.mpr ⟨short, free⟩]
  · simp [child_eq_ok_iff.mpr ⟨short, found⟩]

/-- Where there is no device, what can be written is written to a file. -/
theorem write_eq_ok (null : s.find? (s.place path) ≠ some .nullDevice)
    (full : s.find? (s.place path) ≠ some .fullDevice)
    (h : s.write path bytes = (.ok (), s')) : IsWritten path bytes s s' := by
  rcases write_cases s path bytes with ⟨file, -, eq⟩ | ⟨-, taken⟩
  · obtain rfl : s.put (s.place path) (.file bytes) = s' := (Prod.ext_iff.mp (eq.symm.trans h)).2
    exact isWritten_put file bytes
  · rcases taken (by rw [h]) with device | ⟨-, device⟩
    · exact absurd device null
    · exact absurd device full

/-- `s'` differs from `s` at most in the file at `p`, which may be new. -/
structure Rewrites (p : Place) (s s' : Store) : Prop where
  workingDirectory : s'.workingDirectory = s.workingDirectory
  others : ∀ q, q ≠ p → s'.find? q = s.find? q
  here : s'.find? p = s.find? p ∨ s.IsWritable p ∧ ∃ new, s'.find? p = some (.file new)

theorem Rewrites.refl (p : Place) (s : Store) : Rewrites p s s :=
  ⟨rfl, fun _ _ => rfl, .inl rfl⟩

theorem rewrites_write (s : Store) (path : String) (bytes : List UInt8) :
    s.Rewrites (s.place path) (s.write path bytes).2 := by
  rcases write_cases s path bytes with ⟨file, writable, eq⟩ | ⟨same, -⟩
  · have written := isWritten_put file bytes
    rw [eq]
    exact ⟨rfl, fun q other => by rw [written.find?, if_neg other],
      .inr ⟨writable, bytes, by rw [written.find?, if_pos rfl]⟩⟩
  · rw [same]
    exact .refl _ s

/-- All of the bytes that were written to `p` were taken. -/
def HasTaken (s : Store) (p : Place) (bytes : List UInt8) : Prop :=
  s.find? p = some (.file bytes) ∨ s.find? p = some .nullDevice

theorem hasTaken_of_write_eq_ok (h : (s.write path bytes).1 = .ok ()) (filled : bytes ≠ []) :
    (s.write path bytes).2.HasTaken (s.place path) bytes := by
  rcases write_cases s path bytes with ⟨file, -, eq⟩ | ⟨same, taken⟩
  · rw [eq]
    exact .inl (by rw [(isWritten_put file bytes).find?, if_pos rfl])
  · rw [same]
    rcases taken h with device | ⟨empty, -⟩
    · exact .inr device
    · exact absurd empty filled

theorem IsWritten.keepsDirectories (h : IsWritten path bytes s s') : KeepsDirectories s s' := by
  refine ⟨h.workingDirectory, fun q found => ?_⟩
  rw [h.find?, if_neg]
  · exact found
  · intro same
    exact h.file.no_directory (same ▸ found)

/-- A file that was written can be read as long as it and the directories are there. -/
theorem IsWritten.read (h : IsWritten path bytes s s') (later : KeepsDirectories s' s'')
    (holds : s''.find? (s.place path) = some (.file bytes)) : s''.read path = .ok bytes := by
  obtain ⟨parent, name, aimed, short, place⟩ := h.file.aimed
  have aimed' := target_of_keepsDirectories later
    (target_of_keepsDirectories h.keepsDirectories aimed)
  have child : s''.child parent name = .ok (.file bytes) :=
    child_eq_ok_iff.mpr ⟨short, place ▸ holds⟩
  have resolved : s''.resolve path = .ok (parent ++ [name], .file bytes) := by
    rw [resolve, aimed']
    simp [bind, Except.bind, child, pure, Except.pure]
  rw [Store.read, resolved]
  rfl

end StumpCompiler.Store
