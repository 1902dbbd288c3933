import Mathlib
import StumpCompiler.Store.Path

/-! The parts of joined paths and of paths that are put together from parts. -/

namespace StumpCompiler.Path

/-- A text that is one part of a path. -/
structure IsPart (name : String) : Prop where
  ne_empty : name ≠ ""
  no_slash : '/' ∉ name.toList

/-! Cutting. -/

theorem splitOn_ne_nil (separator : Char) (cs : List Char) : splitOn separator cs ≠ [] := by
  cases cs with
  | nil => simp [splitOn]
  | cons c cs =>
    rw [splitOn]
    split
    · simp
    · split <;> simp

theorem splitOn_append (separator : Char) (cs ds : List Char) :
    splitOn separator (cs ++ separator :: ds) = splitOn separator cs ++ splitOn separator ds := by
  induction cs with
  | nil => simp [splitOn]
  | cons c cs ih =>
    by_cases cut : c = separator
    · simp [splitOn, cut, ih]
    · obtain ⟨word, words, eq⟩ := List.exists_cons_of_ne_nil (splitOn_ne_nil separator cs)
      rw [List.cons_append, splitOn, splitOn, if_neg cut, if_neg cut, ih, eq]
      rfl

theorem splitOn_eq_singleton {separator : Char} {cs : List Char} (h : separator ∉ cs) :
    splitOn separator cs = [cs] := by
  induction cs with
  | nil => rfl
  | cons c cs ih =>
    rw [List.mem_cons, not_or] at h
    rw [splitOn, if_neg (Ne.symm h.1), ih h.2]

theorem not_mem_of_mem_splitOn {separator : Char} {cs word : List Char}
    (h : word ∈ splitOn separator cs) : separator ∉ word := by
  induction cs generalizing word with
  | nil =>
    rw [splitOn, List.mem_singleton] at h
    simp [h]
  | cons c cs ih =>
    rw [splitOn] at h
    split at h
    · rcases List.mem_cons.mp h with rfl | h
      · simp
      · exact ih h
    · next other =>
      obtain ⟨first, words, eq⟩ := List.exists_cons_of_ne_nil (splitOn_ne_nil separator cs)
      rw [eq] at h ih
      rcases List.mem_cons.mp h with rfl | h
      · rw [List.mem_cons, not_or]
        exact ⟨Ne.symm other, ih (by simp)⟩
      · exact ih (by simp [h])

/-! Parts. -/

theorem parts_append (front back : String) :
    parts (front ++ "/" ++ back) = parts front ++ parts back := by
  have slash : (front ++ "/" ++ back).toList = front.toList ++ '/' :: back.toList := by simp
  rw [parts, slash, splitOn_append, List.filter_append, List.map_append]
  rfl

theorem parts_eq_singleton {name : String} (h : IsPart name) : parts name = [name] := by
  have filled : name.toList ≠ [] := by simpa using h.ne_empty
  rw [parts, splitOn_eq_singleton h.no_slash, List.filter_cons, if_pos (by simpa using filled)]
  simp

theorem isPart_of_mem_parts {path name : String} (h : name ∈ parts path) : IsPart name := by
  obtain ⟨word, mem, rfl⟩ := List.mem_map.mp h
  obtain ⟨mem, filled⟩ := List.mem_filter.mp mem
  refine ⟨by simpa using filled, ?_⟩
  rw [String.toList_ofList]
  exact not_mem_of_mem_splitOn mem

theorem isAbsolute_part {name : String} (h : IsPart name) : isAbsolute name = false := by
  obtain ⟨c, cs, eq⟩ := List.exists_cons_of_ne_nil (by simpa using h.ne_empty : name.toList ≠ [])
  have no_slash := h.no_slash
  rw [eq, List.mem_cons, not_or] at no_slash
  simp [isAbsolute, eq, Ne.symm no_slash.1]

theorem isAbsolute_append {front : String} (filled : front ≠ "") (back : String) :
    isAbsolute (front ++ back) = isAbsolute front := by
  obtain ⟨c, cs, eq⟩ := List.exists_cons_of_ne_nil (by simpa using filled : front.toList ≠ [])
  simp [isAbsolute, eq]

/-! Joined paths. -/

theorem exists_eq_of_endsInSlash {directory : String} (h : endsInSlash directory) :
    ∃ front, directory = front ++ "/" := by
  obtain ⟨cs, eq⟩ := List.getLast?_eq_some_iff.mp (by simpa [endsInSlash] using h)
  exact ⟨String.ofList cs, String.toList_inj.mp (by simp [eq])⟩

theorem parts_join (directory : String) {name : String} (h : IsPart name) :
    parts (join directory name) = parts directory ++ [name] := by
  rw [join, isAbsolute_part h, ← parts_eq_singleton h]
  split_ifs with empty slash
  · rw [show directory = "" by simpa using empty]
    rfl
  · obtain ⟨front, rfl⟩ := exists_eq_of_endsInSlash slash
    have front_parts : parts (front ++ "/") = parts front := by
      have with_nothing := parts_append front ""
      rw [String.append_empty] at with_nothing
      rw [with_nothing]
      exact List.append_nil _
    rw [parts_append, front_parts]
  · exact parts_append directory name

theorem isAbsolute_join (directory : String) {name : String} (h : IsPart name) :
    isAbsolute (join directory name) = isAbsolute directory := by
  rw [join, isAbsolute_part h]
  split_ifs with empty slash
  · rw [show directory = "" by simpa using empty, isAbsolute_part h]
    rfl
  · exact isAbsolute_append (by simpa using empty) name
  · rw [String.append_assoc]
    exact isAbsolute_append (by simpa using empty) _

theorem exists_join_eq {directory name : String} (filled : directory ≠ "") (h : IsPart name) :
    ∃ rest, join directory name = directory ++ rest := by
  rw [join, isAbsolute_part h]
  split_ifs with empty slash
  · simp [filled] at empty
  · exact ⟨name, rfl⟩
  · exact ⟨"/" ++ name, String.append_assoc ..⟩

theorem mem_join {directory name : String} {c : Char} (h : IsPart name)
    (mem : c ∈ (join directory name).toList) :
    c ∈ directory.toList ∨ c = '/' ∨ c ∈ name.toList := by
  rw [join, isAbsolute_part h] at mem
  split_ifs at mem
  · exact .inr (.inr mem)
  · simp only [String.toList_append, List.mem_append] at mem
    tauto
  · simp only [String.toList_append, List.mem_append] at mem
    have slash : c ∈ "/".toList → c = '/' := by simp
    tauto

theorem endsInSlash_join (directory : String) {name : String} (h : IsPart name) :
    endsInSlash (join directory name) = false := by
  have back : ∃ front : List Char, (join directory name).toList = front ++ name.toList := by
    rw [join, isAbsolute_part h]
    split_ifs
    · exact ⟨[], rfl⟩
    · exact ⟨directory.toList, String.toList_append⟩
    · exact ⟨directory.toList ++ "/".toList, by simp⟩
  obtain ⟨front, eq⟩ := back
  have filled : name.toList ≠ [] := by simpa using h.ne_empty
  obtain ⟨cs, c, last⟩ := (List.eq_nil_or_concat' name.toList).resolve_left filled
  have other : c ≠ '/' := by
    rintro rfl
    exact h.no_slash (by simp [last])
  rw [endsInSlash, eq, last, ← List.append_assoc, List.getLast?_concat]
  simpa using other

/-! Paths of given parts. -/

theorem parts_intercalate {ps : List String} (h : ∀ p ∈ ps, IsPart p) :
    parts ("/".intercalate ps) = ps := by
  induction ps with
  | nil => rfl
  | cons p ps ih =>
    rw [List.forall_mem_cons] at h
    cases ps with
    | nil =>
      rw [String.intercalate_singleton]
      exact parts_eq_singleton h.1
    | cons q qs =>
      rw [String.intercalate_cons_cons, parts_append, parts_eq_singleton h.1, ih h.2]
      rfl

theorem parts_ofParts (absolute : Bool) {ps : List String} (h : ∀ p ∈ ps, IsPart p) :
    parts (ofParts absolute ps) = ps := by
  cases absolute with
  | false => simpa [ofParts] using parts_intercalate h
  | true =>
    have rooted := parts_append "" ("/".intercalate ps)
    rw [parts_intercalate h] at rooted
    simpa [ofParts, parts, splitOn] using rooted

theorem isAbsolute_ofParts (absolute : Bool) {p : String} {ps : List String} (h : IsPart p) :
    isAbsolute (ofParts absolute (p :: ps)) = absolute := by
  cases absolute with
  | false =>
    have starts : ∃ more, "/".intercalate (p :: ps) = p ++ more := by
      cases ps with
      | nil => exact ⟨"", by simp⟩
      | cons q qs => exact ⟨_, by rw [String.intercalate_cons_cons, String.append_assoc]⟩
    obtain ⟨more, eq⟩ := starts
    have same : ofParts false (p :: ps) = p ++ more := by simp [ofParts, eq]
    rw [same, isAbsolute_append h.ne_empty, isAbsolute_part h]
  | true => simp [ofParts, isAbsolute]

/-- The first naming parts of a path are its first parts without dots. -/
theorem exists_prefix_parts {path : String} {ps : List String} (h : ps <+: namingParts path) :
    ∃ qs, qs <+: parts path ∧ qs.filter (· ≠ ".") = ps.filter (· ≠ ".") := by
  rw [namingParts] at h
  split at h
  · exact ⟨[], List.nil_prefix, by rw [List.prefix_nil.mp h]⟩
  · next first rest eq =>
    rw [eq]
    split_ifs at h with dot
    · obtain ⟨qs, qs_prefix, rfl⟩ := List.prefix_filter_iff.mp h
      refine ⟨first :: qs, List.cons_prefix_cons.mpr ⟨rfl, qs_prefix⟩, ?_⟩
      have is_dot : first = "." := by simpa using And.left (by simpa using dot)
      simp [is_dot]
    · rcases List.prefix_cons_iff.mp h with rfl | ⟨more, rfl, more_prefix⟩
      · exact ⟨[], List.nil_prefix, rfl⟩
      · obtain ⟨qs, qs_prefix, rfl⟩ := List.prefix_filter_iff.mp more_prefix
        refine ⟨first :: qs, List.cons_prefix_cons.mpr ⟨rfl, qs_prefix⟩, ?_⟩
        simp [List.filter_cons]

theorem isPart_of_mem_namingParts {path name : String} (h : name ∈ namingParts path) :
    IsPart name := by
  suffices name ∈ parts path from isPart_of_mem_parts this
  rw [namingParts] at h
  split at h
  · contradiction
  · next first rest eq =>
    rw [eq]
    rcases List.mem_append.mp h with h | h
    · split_ifs at h
      · contradiction
      · exact List.mem_cons.mpr (.inl (List.mem_singleton.mp h))
    · exact List.mem_cons_of_mem _ (List.mem_of_mem_filter h)

end StumpCompiler.Path
