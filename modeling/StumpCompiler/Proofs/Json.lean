import StumpCompiler.Json.Parse
import StumpCompiler.Proofs.Text.Grammar
import StumpCompiler.Proofs.Text.Utf8

/-! Quoted texts are read back as JSON strings, and objects of them with their members. -/

namespace StumpCompiler.Json

open Text (Position Partial Scan)
open Text.Scan (Round)

variable {rest : List Char}

/-! Strings. -/

theorem hexDigit_spec {n : ℕ} (below : n < 16) :
    Text.isHexDigit (hexDigit n) ∧ Text.digitValue (hexDigit n) = n := by
  interval_cases n <;> decide

theorem round_escaped {more : List Char} {n : ℕ} (s : Partial ℕ)
    (reads : escaped.Reads more rest (· = n)) :
    Round stringStep s ('\\' :: more) rest (s.add n) :=
  ⟨'\\', more, rfl, fun _ => ⟨_, rfl, .bind_all_eq reads (.pure rfl)⟩⟩

theorem round_escape (c : Char) (s : Partial ℕ) (rest : List Char) :
    Round stringStep s (escape c) rest (s.add c.toNat) := by
  unfold escape
  split_ifs with quote backslash backspace tab feed page back control
  rotate_left 7
  · refine round_escaped s (.bind_cons (.one rfl) ?_)
    refine .bind_all (.hexDigits_four ?_ ?_) fun _ number => .pure number
    · exact hexDigit_spec (by omega)
    · exact hexDigit_spec (by omega)
  · refine .of_pure fun place => ?_
    unfold stringStep
    split
    · contradiction
    · next h => exact absurd (List.cons.inj h).1 quote
    · next h => exact absurd (List.cons.inj h).1 backslash
    · next h =>
      obtain ⟨rfl, -⟩ := List.cons.inj h
      rw [if_neg control]
  -- The other escapes have one letter behind the backslash.
  all_goals
    subst_vars
    exact round_escaped s (.bind_all_eq (.one rfl) (.pure rfl))

/-- No character is a half of a surrogate pair. -/
theorem joinPairs_toNat (cs : List Char) : joinPairs (cs.map Char.toNat) = some cs := by
  induction cs with
  | nil => rfl
  | cons c cs ih =>
    have ranges := Text.Utf8.toNat_ranges c
    have not_low : isLow c.toNat = false := by
      simp only [isLow, Bool.and_eq_false_iff, decide_eq_false_iff_not]
      omega
    have not_high : isHigh c.toNat = false := by
      simp only [isHigh, Bool.and_eq_false_iff, decide_eq_false_iff_not]
      omega
    rw [List.map_cons, joinPairs.eq_def]
    simp [not_low, not_high, ih]

theorem reads_stringBody (s : String) :
    stringBody.Reads (s.toList.flatMap escape ++ ['"']) rest (· = some s) := by
  refine .bind_all_eq (.closedBy_flatMap Char.toNat ?_ (fun _ _ => rfl) rfl) (.pure ?_)
  · exact fun c _ t rest => round_escape c t rest
  · simp [Text.Partial.start, joinPairs_toNat]

theorem toList_quote (s : String) :
    (quote s).toList = '"' :: (s.toList.flatMap escape ++ ['"']) := by
  simp [quote]

theorem reads_value (s : String) (depth : ℕ) :
    (value (depth + 1)).Reads (quote s).toList rest (· = .string (some s)) := by
  rw [toList_quote]
  refine .peek ?_
  exact .bind_skip (.bind_all_eq (reads_stringBody s) (.pure rfl))

/-! Objects. -/

theorem reads_spaces {text : List Char} (all : ∀ c ∈ text, isSpace c)
    (stops : ∀ c ∈ rest.head?, isSpace c = false) : spaces.Reads text rest fun _ => True :=
  .bind_all_eq (.takeWhile all stops) (.pure trivial)

/-- A member as it is written. -/
def memberText : String × String → List Char
  | (key, s) => (quote key).toList ++ ':' :: ([' '] ++ (quote s).toList)

theorem reads_member (m : String × String) (depth : ℕ) :
    (member (value (depth + 1))).Reads (memberText m) rest
      (· = (some m.1, .string (some m.2))) := by
  obtain ⟨key, s⟩ := m
  rw [memberText, toList_quote key]
  refine .bind_cons (.one rfl) (.bind_eq (reads_stringBody key) ?_)
  refine .bind_nothing (reads_spaces (by simp) (by simp [isSpace])) fun _ _ => ?_
  refine .bind_cons (.one rfl) ?_
  refine .bind (reads_spaces (by simp [isSpace]) (by simp [toList_quote, isSpace])) fun _ _ => ?_
  exact .bind_all_eq (reads_value s depth) (.pure rfl)

section

variable {α β : Type} (close : Char) (written : β → List Char)

/-- The space behind an item in front of others, each on a line of its own. -/
def gap : List β → List Char
  | [] => ['\n']
  | _ :: _ => []

/-- Items behind others, and the closing bracket. -/
def lines : List β → List Char
  | [] => [close]
  | x :: xs => ',' :: (['\n', ' ', ' '] ++ (written x ++ (gap xs ++ lines xs)))

variable {close written} {item : Scan Position α} {part : β → α}

theorem reads_gap (bracket : isSpace close = false) (xs : List β) :
    spaces.Reads (gap xs) (lines close written xs ++ rest) fun _ => True := by
  cases xs with
  | nil => exact reads_spaces (by simp [gap, isSpace]) (by simpa [lines] using bracket)
  | cons x xs => exact reads_spaces (by simp [gap]) (by simp [lines, isSpace])

/-- Items on lines of their own are read back, whatever follows. -/
theorem reads_separated (rest : List Char) (bracket : isSpace close = false) (other : close ≠ ',')
    (items : ∀ x rest, item.Reads (written x) rest (· = part x))
    (starts : ∀ x, ∃ c cs, written x = c :: cs ∧ isSpace c = false ∧ c ≠ close)
    (x : β) (xs : List β) :
    (separated close item).Reads
      (['\n', ' ', ' '] ++ (written x ++ (gap xs ++ lines close written xs))) rest
      (· = part x :: xs.map part) := by
  have indent (x : β) (more : List Char) :
      spaces.Reads ['\n', ' ', ' '] (written x ++ more) fun _ => True := by
    obtain ⟨c, cs, eq, ordinary, -⟩ := starts x
    exact reads_spaces (by simp [isSpace]) (by simpa [eq] using ordinary)
  refine .bind (by simpa using indent x _) fun _ _ => ?_
  refine .peek ?_
  obtain ⟨c, cs, eq, -, ne⟩ := starts x
  rw [if_neg (by simp [eq, ne])]
  refine .bind_eq (items x _) (.bind (reads_gap bracket xs) fun _ _ => ?_)
  suffices ∀ s : Partial α, s.closed = false → (Scan.closedBy _ s).Reads (lines close written xs)
      rest (· = s.read.reverse ++ xs.map part) from this ⟨[part x], false⟩ rfl
  induction xs with
  | nil =>
    intro s opened
    refine .closedBy_close (fun place => ?_) opened (by simp)
    simp [other]
  | cons y ys ih =>
    intro s opened
    have cut : lines close written (y :: ys) =
        ',' :: (['\n', ' ', ' '] ++ (written y ++ gap ys)) ++ lines close written ys := by
      simp [lines]
    rw [cut]
    refine .closedBy_round (show Round _ s _ _ (s.add (part y)) from ⟨',', _, rfl, ?_⟩) opened ?_
    · refine fun place => ⟨_, if_pos rfl, ?_⟩
      refine .bind (by simpa using indent y _) fun _ _ => .bind_eq (items y _) ?_
      exact .bind_all (reads_gap bracket ys) fun _ _ => .pure rfl
    · have later := ih (s.add (part y)) opened
      simpa [Text.Partial.add] using later

end

/-- The object of a member and others, each on a line of its own. -/
def objectText (m : String × String) (ms : List (String × String)) : List Char :=
  '\x7b' :: (['\n', ' ', ' '] ++ (memberText m ++ (gap ms ++ lines '\x7d' memberText ms)))

/-- The object whose members have the given names and texts. -/
def objectOf (ms : List (String × String)) : Value :=
  .object (ms.map fun m => (some m.1, .string (some m.2)))

theorem parse_objectText (m : String × String) (ms : List (String × String)) :
    parse (objectText m ms) = .ok (objectOf (m :: ms)) := by
  obtain ⟨depth, enough⟩ : ∃ depth, (objectText m ms).length = depth + 1 := ⟨_, rfl⟩
  have starts (m : String × String) :
      ∃ c cs, memberText m = c :: cs ∧ isSpace c = false ∧ c ≠ '\x7d' :=
    ⟨'"', _, by rw [memberText, toList_quote]; rfl, by decide, by decide⟩
  have object : (value (depth + 1 + 1)).Reads (objectText m ms) [] (· = objectOf (m :: ms)) := by
    refine .peek (.bind_skip ?_)
    have members := reads_separated [] (by decide) (by decide)
      (fun m _ => reads_member m depth) starts m ms
    exact .bind_all_eq members (.pure rfl)
  rw [parse, enough]
  refine Scan.whole_eq_ok ?_
  refine .bind_nothing (reads_spaces (by simp) (by simp [objectText, isSpace])) fun _ _ => ?_
  refine .bind_all_eq object (.bind_nothing (reads_spaces (by simp) (by simp)) ?_)
  exact fun _ _ => .pure rfl

end StumpCompiler.Json
