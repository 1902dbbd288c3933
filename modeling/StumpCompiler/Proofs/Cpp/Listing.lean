import StumpCompiler.Proofs.Cpp.SourceLines

/-! A listing keeps its text and its count in step. However it is put together, the text is that of
the lines it was given, one after the other, and the count is their number; lines without line ends
are found again in the text. -/

namespace StumpCompiler.Cpp

/-- What a listing may be given. -/
inductive Addition where
  | line (text : String)
  | pieces (parts : List String)
  | blank
  | lines (texts : List String)

namespace Addition

/-- The listing with what is added to it. -/
def addTo (l : Listing) : Addition → Listing
  | line text => l.line text
  | pieces parts => l.pieces parts
  | blank => l.blank
  | lines texts => l.lines texts

/-- The lines that are added. -/
def texts : Addition → List String
  | line text => [text]
  | pieces parts => [String.join parts]
  | blank => [""]
  | lines texts => texts

/-- All lines that are added, in order. -/
def given (as : List Addition) : List String :=
  as.flatMap texts

end Addition

namespace Listing

open Addition (given)

/-- The listing of what was added, the first addition first. -/
def ofAdditions (as : List Addition) : Listing :=
  as.foldl Addition.addTo empty

/-! Every addition is one of whole lines. -/

theorem foldl_append_eq (text : String) (parts : List String) :
    parts.foldl (· ++ ·) text = text ++ String.join parts := by
  induction parts generalizing text with
  | nil => simp
  | cons part parts ih => rw [List.foldl_cons, ih, String.join_cons, String.append_assoc]

theorem pieces_eq_line (l : Listing) (parts : List String) :
    l.pieces parts = l.line (String.join parts) := by
  rw [pieces, foldl_append_eq, line]

theorem lines_append (l : Listing) (ss ts : List String) :
    l.lines (ss ++ ts) = (l.lines ss).lines ts := by
  unfold lines
  exact List.foldl_append

theorem addTo_eq_lines (l : Listing) (a : Addition) : a.addTo l = l.lines a.texts := by
  cases a with
  | line text => rfl
  | pieces parts => exact pieces_eq_line l parts
  | blank => rfl
  | lines texts => rfl

theorem foldl_addTo_eq_lines (l : Listing) (as : List Addition) :
    as.foldl Addition.addTo l = l.lines (given as) := by
  induction as generalizing l with
  | nil => rfl
  | cons a as ih =>
    have front : given (a :: as) = a.texts ++ given as := List.flatMap_cons
    rw [List.foldl_cons, ih, addTo_eq_lines, front, lines_append]

theorem ofAdditions_eq_lines (as : List Addition) : ofAdditions as = empty.lines (given as) :=
  foldl_addTo_eq_lines empty as

/-! Text and count. -/

theorem count_lines (l : Listing) (ss : List String) : (l.lines ss).count = l.count + ss.length := by
  induction ss generalizing l with
  | nil => rfl
  | cons s ss ih =>
    have first : l.lines (s :: ss) = (l.line s).lines ss := rfl
    have more : (l.line s).count = l.count + 1 := rfl
    rw [first, ih, more, List.length_cons]
    omega

theorem text_lines (l : Listing) (ss : List String) :
    (l.lines ss).text = l.text ++ String.join (ss.map (· ++ "\n")) := by
  apply String.toList_inj.mp
  have line_ends : ended = fun s => (s ++ "\n").toList := by
    funext s
    simp [ended]
  rw [toList_text_lines, String.toList_append, String.toList_join, List.flatMap_map, line_ends]

theorem count_newline_flatMap_ended (ss : List String) :
    (ss.flatMap ended).count '\n' = ss.length + (ss.map fun s => s.toList.count '\n').sum := by
  induction ss with
  | nil => rfl
  | cons s ss ih =>
    have first : (ended s).count '\n' = s.toList.count '\n' + 1 := by simp [ended]
    rw [List.flatMap_cons, List.count_append, first, ih, List.map_cons, List.sum_cons,
      List.length_cons]
    omega

/-- Lines without line ends are read from the text. -/
theorem linesOf_text_lines {ss : List String} (h : ∀ s ∈ ss, '\n' ∉ s.toList) :
    (linesOf (empty.lines ss).text.toList).map String.ofList = ss := by
  have text : (empty.lines ss).text.toList = ss.flatMap ended := by
    rw [toList_text_lines]
    rfl
  rw [text, linesOf_flatMap_ended h]
  simp [Function.comp_def]

/-- A listing is the text of its lines, each with a line end, and their number. That is the number of
line ends in the text, less those that the lines have themselves. Where they have none, the text
gives back the lines, so that listings with one text were given the same lines. -/
theorem ofAdditions_in_step (as : List Addition) :
    (ofAdditions as).text = String.join ((given as).map (· ++ "\n")) ∧
      (ofAdditions as).count = (given as).length ∧
      (ofAdditions as).count + ((given as).map fun s => s.toList.count '\n').sum =
        (ofAdditions as).text.toList.count '\n' ∧
      ((∀ s ∈ given as, '\n' ∉ s.toList) →
        (linesOf (ofAdditions as).text.toList).map String.ofList = given as ∧
        ∀ bs : List Addition, (∀ s ∈ given bs, '\n' ∉ s.toList) →
          (ofAdditions as).text = (ofAdditions bs).text → given as = given bs) := by
  simp only [ofAdditions_eq_lines]
  have count (ss : List String) : (empty.lines ss).count = ss.length := by
    rw [count_lines]
    exact Nat.zero_add _
  refine ⟨?_, count _, ?_,
    fun one_line => ⟨linesOf_text_lines one_line, fun bs one_line' same => ?_⟩⟩
  · rw [text_lines]
    exact String.empty_append
  · rw [count, toList_text_lines, List.count_append, count_newline_flatMap_ended]
    exact (Nat.zero_add _).symm
  · have read := linesOf_text_lines one_line
    rw [same, linesOf_text_lines one_line'] at read
    exact read.symm

/-- Some lines are empty, and one is put together from pieces. -/
def mixedAdditions : List Addition :=
  [.line "int", .blank, .pieces ["x[", "3", "]", ""], .lines [], .lines ["", "\x7d"]]

/-- The same lines in another way. -/
def otherAdditions : List Addition :=
  [.lines ["int", "", "x[3]"], .pieces [], .pieces ["\x7d"]]

theorem ofAdditions_in_step_mixed :
    (∀ s ∈ given mixedAdditions, '\n' ∉ s.toList) ∧
      (ofAdditions mixedAdditions).count = 5 ∧
      (linesOf (ofAdditions mixedAdditions).text.toList).map String.ofList =
        ["int", "", "x[3]", "", "\x7d"] ∧
      (ofAdditions mixedAdditions).text = (ofAdditions otherAdditions).text ∧
      given mixedAdditions = given otherAdditions := by
  have texts : given mixedAdditions = ["int", "", "x[3]", "", "\x7d"] := by decide
  have one_line : ∀ s ∈ given mixedAdditions, '\n' ∉ s.toList := by decide
  have one_line' : ∀ s ∈ given otherAdditions, '\n' ∉ s.toList := by decide
  have same : (ofAdditions mixedAdditions).text = (ofAdditions otherAdditions).text := by
    decide +kernel
  obtain ⟨-, count, -, read⟩ := ofAdditions_in_step mixedAdditions
  obtain ⟨lines, unique⟩ := read one_line
  rw [texts] at count
  exact ⟨one_line, count, lines.trans texts, same, unique otherAdditions one_line' same⟩

end Listing

/-- The journal counts the lines of a source. -/
theorem count_sourceListing {m : Model} {s : Settings} (h : m.HasNoLineEnds)
    (one_line : '\n' ∉ s.headerFile.toList) :
    (sourceListing m s).count = (linesOf (source m s).toList).length := by
  rw [linesOf_source h one_line, sourceListing, Listing.count_lines, List.length_map]
  exact Nat.zero_add _

end StumpCompiler.Cpp
