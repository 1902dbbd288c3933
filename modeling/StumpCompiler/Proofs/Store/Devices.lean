import StumpCompiler.Proofs.Store.Files

/-! Devices stay where the store has them from the start, and no path whose file name has an
extension leads to one. -/

namespace StumpCompiler

namespace Path

variable {path name ending : String}

theorem filter_namingParts (path : String) :
    (namingParts path).filter (· ≠ ".") = (parts path).filter (· ≠ ".") := by
  rw [namingParts]
  split
  · next eq => rw [eq]
  · next first rest eq =>
    rw [eq]
    by_cases dot : first = "."
    · split_ifs <;> simp [dot, List.filter_filter]
    · simp [dot, List.filter_filter]

theorem fileName?_eq_some (h : fileName? path = some name) :
    (∃ front, namingParts path = front ++ [name]) ∧ name ≠ "." ∧ name ≠ ".." := by
  rw [fileName?, Option.filter_eq_some_iff] at h
  obtain ⟨last, named⟩ := h
  exact ⟨List.getLast?_eq_some_iff.mp last, by simpa using named⟩

/-- A file name with an extension has a dot. -/
theorem exists_fileName_of_extension (h : extension? path = some ending) :
    ∃ name, fileName? path = some name ∧ '.' ∈ name.toList := by
  obtain ⟨name, named, h⟩ := Option.bind_eq_some_iff.mp h
  refine ⟨name, named, ?_⟩
  by_contra no_dot
  have no_stem : name.toList.reverse.dropWhile (· ≠ '.') = [] := by
    rw [List.dropWhile_eq_nil_iff]
    intro c mem
    simpa using ne_of_mem_of_not_mem (List.mem_reverse.mp mem) no_dot
  simp only [List.span_eq_takeWhile_dropWhile, no_stem] at h
  contradiction

end Path

def Entry.IsDevice (e : Entry) : Prop :=
  e = .nullDevice ∨ e = .fullDevice

namespace Store

variable {s : Store} {path name ending : String} {p : Place} {e : Entry}

theorem exists_place_of_fileName (s : Store) (h : Path.fileName? path = some name) :
    ∃ parent, s.place path = parent ++ [name] := by
  obtain ⟨⟨front, eq⟩, dot, dots⟩ := Path.fileName?_eq_some h
  refine ⟨(front.filter (· ≠ ".")).foldl step (s.base path), ?_⟩
  rw [place, ← foldl_step_filter, ← Path.filter_namingParts, eq, List.filter_append,
    List.foldl_append]
  simp [dot, dots, step]

/-- The store has no devices but those that it has from the start. -/
def DevicesInPlace (s : Store) : Prop :=
  ∀ p e, s.find? p = some e → e.IsDevice → p = ["dev", "null"] ∨ p = ["dev", "full"]

theorem mem_of_lookup {entries : List (Place × Entry)} (found : entries.lookup p = some e) :
    (p, e) ∈ entries := by
  obtain ⟨front, back, eq, -⟩ := List.lookup_eq_some_iff.mp found
  simp [eq]

theorem devicesInPlace_initial : initial.DevicesInPlace := by
  intro p e found device
  rw [find?] at found
  split_ifs at found
  · obtain rfl := Option.some.inj found
    simp [Entry.IsDevice] at device
  · have mem := mem_of_lookup found
    simp only [initial, List.mem_cons, Prod.mk.injEq, List.not_mem_nil, or_false] at mem
    rcases mem with ⟨-, rfl⟩ | ⟨rfl, -⟩ | ⟨rfl, -⟩ | ⟨-, rfl⟩
    · simp [Entry.IsDevice] at device
    · exact .inl rfl
    · exact .inr rfl
    · simp [Entry.IsDevice] at device

theorem DevicesInPlace.put (h : s.DevicesInPlace) (filled : p ≠ []) (other : ¬e.IsDevice) :
    (s.put p e).DevicesInPlace := by
  intro q d found device
  rw [find?_put s p q e filled] at found
  split_ifs at found
  · exact absurd (Option.some.inj found ▸ device) other
  · exact h q d found device

theorem lookup_filter (keep : Place → Bool) {entries : List (Place × Entry)}
    (found : (entries.filter fun e => keep e.1).lookup p = some e) : entries.lookup p = some e := by
  induction entries with
  | nil => exact found
  | cons entry entries ih =>
    obtain ⟨q, d⟩ := entry
    rw [List.filter_cons] at found
    rw [List.lookup_cons]
    split_ifs at found with kept
    · rw [List.lookup_cons] at found
      split at found
      · next same => simpa [same] using found
      · next other => simpa [other] using ih found
    · have other : (p == q) = false := by
        rw [beq_eq_false_iff_ne]
        rintro rfl
        obtain ⟨mem⟩ := List.mem_filter.mp (mem_of_lookup found)
        contradiction
      simpa [other] using ih found

theorem find?_dropAll {q : Place} (found : (s.dropAll p).find? q = some e) :
    s.find? q = some e := by
  rw [find?] at found ⊢
  split_ifs at found ⊢
  · exact found
  · exact lookup_filter (fun q => !p.isPrefixOf q) found

theorem DevicesInPlace.dropAll (h : s.DevicesInPlace) (p : Place) : (s.dropAll p).DevicesInPlace :=
  fun q d found => h q d (find?_dropAll found)

theorem DevicesInPlace.write (h : s.DevicesInPlace) (path : String) (bytes : List UInt8) :
    (s.write path bytes).2.DevicesInPlace := by
  rcases write_cases s path bytes with ⟨file, -, eq⟩ | ⟨same, -⟩
  · rw [eq]
    exact h.put (ne_nil_of_find? file.no_directory) (by simp [Entry.IsDevice])
  · rwa [same]

theorem DevicesInPlace.makeDirectory (h : s.DevicesInPlace) (path : String) :
    (s.makeDirectory path).2.DevicesInPlace := by
  unfold Store.makeDirectory
  split
  · exact h
  · exact h
  · split
    · exact h.put (by simp) (by simp [Entry.IsDevice])
    · exact h
    · exact h

theorem DevicesInPlace.remove (h : s.DevicesInPlace) (path : String) :
    (s.remove path).2.DevicesInPlace := by
  unfold Store.remove
  split
  · exact h
  · exact h
  · exact h
  · exact h.dropAll _

/-- A path whose file name has an extension does not lead to a device. -/
theorem DevicesInPlace.find?_ne (h : s.DevicesInPlace) (named : Path.extension? path = some ending)
    (device : e.IsDevice) : s.find? (s.place path) ≠ some e := by
  obtain ⟨name, file, dot⟩ := Path.exists_fileName_of_extension named
  obtain ⟨parent, place⟩ := exists_place_of_fileName s file
  have last : (s.place path).getLast? = some name := by rw [place, List.getLast?_concat]
  intro found
  rcases h _ e found device with null | full
  · rw [null] at last
    obtain rfl := Option.some.inj last
    contradiction
  · rw [full] at last
    obtain rfl := Option.some.inj last
    contradiction

theorem DevicesInPlace.write_eq_ok_iff (h : s.DevicesInPlace)
    (named : Path.extension? path = some ending) (bytes : List UInt8) :
    (s.write path bytes).1 = .ok () ↔ s.CanWrite path := by
  constructor
  · intro ok
    rcases write_cases s path bytes with ⟨file, writable, -⟩ | ⟨-, taken⟩
    · exact ⟨file, writable⟩
    · rcases taken ok with null | ⟨-, full⟩
      · exact absurd null (h.find?_ne named (.inl rfl))
      · exact absurd full (h.find?_ne named (.inr rfl))
  · intro can
    rw [can.write_eq]

end Store

end StumpCompiler
