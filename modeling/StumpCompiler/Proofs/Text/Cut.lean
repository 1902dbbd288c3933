import Mathlib
import StumpCompiler.Text.Cursor

/-! Where a list is cut: in front of its first tail that a condition holds of, or that begins with a
given word. -/

namespace StumpCompiler.Text

variable {α : Type} {stop : List α → Bool} {before rest xs word : List α}

theorem cutBefore_go_eq (stop : List α → Bool) (read xs : List α) :
    cutBefore.go stop read xs = (read.reverse ++ (cutBefore stop xs).1, (cutBefore stop xs).2) := by
  have any (xs : List α) : ∀ read, cutBefore.go stop read xs =
      (read.reverse ++ (cutBefore.go stop [] xs).1, (cutBefore.go stop [] xs).2) := by
    induction xs with
    | nil => simp [cutBefore.go]
    | cons x xs ih =>
      intro read
      rw [cutBefore.go, cutBefore.go]
      split
      · simp
      · rw [ih (x :: read), ih [x]]
        simp
  exact any xs read

theorem cutBefore_cons (stop : List α → Bool) (x : α) (xs : List α) :
    cutBefore stop (x :: xs) =
      if stop (x :: xs) then ([], x :: xs)
      else (x :: (cutBefore stop xs).1, (cutBefore stop xs).2) := by
  rw [cutBefore, cutBefore.go, cutBefore_go_eq]
  rfl

/-- What is cut off is empty or begins where the condition holds. -/
theorem cutBefore_stops (stop : List α → Bool) (xs : List α) :
    (cutBefore stop xs).2 = [] ∨ stop (cutBefore stop xs).2 := by
  induction xs with
  | nil => exact .inl rfl
  | cons x xs ih =>
    rw [cutBefore_cons]
    split
    · next stops => exact .inr stops
    · exact ih

/-- The condition holds nowhere in front of the cut. -/
theorem cutBefore_goes_on (stop : List α → Bool) (xs : List α) {cs ds : List α}
    (split : (cutBefore stop xs).1 = cs ++ ds) (ne : ds ≠ []) :
    stop (ds ++ (cutBefore stop xs).2) = false := by
  induction xs generalizing cs with
  | nil => exact absurd (List.append_eq_nil_iff.mp split.symm).2 ne
  | cons x xs ih =>
    rw [cutBefore_cons] at split ⊢
    split_ifs at split ⊢ with stops
    · exact absurd (List.append_eq_nil_iff.mp split.symm).2 ne
    · rcases List.cons_eq_append_iff.mp split with ⟨rfl, rfl⟩ | ⟨cs', rfl, tail⟩
      · rw [List.cons_append, cutBefore_append]
        simpa using stops
      · exact ih tail

theorem cutBefore_append_eq (ends : rest = [] ∨ stop rest)
    (on : ∀ cs ds, before = cs ++ ds → ds ≠ [] → stop (ds ++ rest) = false) :
    cutBefore stop (before ++ rest) = (before, rest) := by
  induction before with
  | nil =>
    cases rest with
    | nil => rfl
    | cons r rest => rw [List.nil_append, cutBefore_cons, if_pos (ends.resolve_left (by simp))]
  | cons x before ih =>
    have first : stop (x :: (before ++ rest)) = false := on [] (x :: before) rfl (by simp)
    rw [List.cons_append, cutBefore_cons, first,
      ih fun cs ds split ne => on (x :: cs) ds (by rw [split, List.cons_append]) ne]
    rfl

/-- The cut is where the condition first holds, or at the end. -/
theorem cutBefore_eq_iff :
    cutBefore stop xs = (before, rest) ↔ xs = before ++ rest ∧ (rest = [] ∨ stop rest) ∧
      ∀ cs ds, before = cs ++ ds → ds ≠ [] → stop (ds ++ rest) = false := by
  constructor
  · intro cut
    obtain ⟨rfl, rfl⟩ := Prod.ext_iff.mp cut
    exact ⟨(cutBefore_append stop xs).symm, cutBefore_stops stop xs,
      fun cs ds => cutBefore_goes_on stop xs⟩
  · rintro ⟨rfl, ends, on⟩
    exact cutBefore_append_eq ends on

/-- The word stands at the beginning of `rest`, and at no place in front of it. -/
structure IsFirst (word before rest : List α) : Prop where
  here : word <+: rest
  not_earlier : ∀ cs ds, before = cs ++ ds → ds ≠ [] → ¬word <+: ds ++ rest

/-- The word has a character that does not stand in `before`, so it does not begin there. -/
theorem isFirst_of_not_mem (start : List α) (c : α) (more : List α) (first : c ∉ start)
    (absent : c ∉ before) :
    IsFirst (start ++ c :: more) before (start ++ c :: more ++ rest) := by
  refine ⟨List.prefix_append _ _, fun cs ds eq ne begins => ?_⟩
  have free : c ∉ ds ++ start := by
    rw [eq] at absent
    simp_all
  have place : (ds ++ (start ++ c :: more ++ rest))[start.length]? = some c := by
    obtain ⟨tail, same⟩ := begins
    rw [← same]
    simp
  have length := List.length_pos_iff.mpr ne
  rw [← List.append_assoc, ← List.append_assoc, List.append_assoc, List.getElem?_append_left
    (by simp; omega)] at place
  exact free (List.mem_of_getElem? place)

theorem cutBefore_word_iff [BEq α] [LawfulBEq α] (some_word : word ≠ []) :
    cutBefore (word.isPrefixOf ·) xs = (before, rest) ∧ rest ≠ [] ↔
      xs = before ++ rest ∧ IsFirst word before rest := by
  have found : word <+: rest → rest ≠ [] := by
    rintro begins rfl
    exact some_word (List.prefix_nil.mp begins)
  simp only [cutBefore_eq_iff, ← Bool.not_eq_true, List.isPrefixOf_iff_prefix]
  constructor
  · rintro ⟨⟨split, ends, on⟩, some_left⟩
    exact ⟨split, ends.resolve_left some_left, on⟩
  · rintro ⟨split, here, on⟩
    exact ⟨⟨split, .inr here, on⟩, found here⟩

theorem isPrefixOf_of_ne [BEq α] [LawfulBEq α] {x y : α} (other : x ≠ y) (ys xs : List α) :
    (y :: ys).isPrefixOf (x :: xs) = false := by
  simp [List.isPrefixOf, other.symm]

theorem dropWhile_eq_cons_iff {p : α → Bool} {x : α} :
    xs.dropWhile p = x :: rest ↔
      ∃ before, xs = before ++ x :: rest ∧ (∀ y ∈ before, p y) ∧ p x = false := by
  constructor
  · intro h
    refine ⟨xs.takeWhile p, ?_, fun y => List.mem_takeWhile_imp, ?_⟩
    · rw [← h, List.takeWhile_append_dropWhile]
    · have first := List.head_dropWhile_not p (l := xs) (by simp [h])
      simpa [h] using first
  · rintro ⟨before, rfl, all, other⟩
    rw [List.dropWhile_append_of_pos all, List.dropWhile_cons_of_neg (by simp [other])]

end StumpCompiler.Text
