/-!
Where a text stands: rows and columns, and a cursor over the part that is not yet read.
-/

namespace StumpCompiler.Text

/-- A place in a text. Rows and columns count from one, columns in characters. -/
structure Position where
  row : Nat
  column : Nat
  deriving DecidableEq

namespace Position

/-- The first character of a text. -/
def start : Position := ⟨1, 1⟩

/-- One character further; a line feed opens the next row. -/
def after (p : Position) (c : Char) : Position :=
  if c = '\n' then ⟨p.row + 1, 1⟩ else ⟨p.row, p.column + 1⟩

def afterAll (p : Position) (cs : List Char) : Position :=
  cs.foldl after p

def text (p : Position) : String :=
  toString p.row ++ ":" ++ toString p.column

end Position

/-- The unread part of a text and the place where it starts. -/
structure Cursor where
  rest : List Char
  position : Position
  deriving DecidableEq

namespace Cursor

def ofChars (cs : List Char) : Cursor := ⟨cs, .start⟩

/-- Past the next `n` characters. -/
def drop (c : Cursor) (n : Nat) : Cursor :=
  ⟨c.rest.drop n, c.position.afterAll (c.rest.take n)⟩

/-- The text `word` comes next. -/
def sees (c : Cursor) (word : String) : Bool :=
  word.toList.isPrefixOf c.rest

/-- The cursors that stand no earlier than `c`. -/
abbrev Ahead (c : Cursor) : Type := { d : Cursor // d.rest.length ≤ c.rest.length }

theorem drop_le (c : Cursor) (n : Nat) : (c.drop n).rest.length ≤ c.rest.length := by
  simp [drop]

theorem drop_lt (c : Cursor) (n : Nat) (h : c.rest ≠ []) :
    (c.drop (n + 1)).rest.length < c.rest.length := by
  have := List.length_pos_iff.mpr h
  simp [drop]
  omega

end Cursor

/-- Cuts a list in front of its first tail on which `stop` holds, or at its end. -/
def cutBefore {α : Type} (stop : List α → Bool) (xs : List α) : List α × List α :=
  go [] xs
where
  go (read : List α) : List α → List α × List α
    | [] => (read.reverse, [])
    | x :: xs => if stop (x :: xs) then (read.reverse, x :: xs) else go (x :: read) xs

theorem cutBefore_go_append {α : Type} (stop : List α → Bool) (read xs : List α) :
    (cutBefore.go stop read xs).1 ++ (cutBefore.go stop read xs).2 = read.reverse ++ xs := by
  induction xs generalizing read with
  | nil => simp [cutBefore.go]
  | cons x xs ih =>
    rw [cutBefore.go]
    split
    · rfl
    · simp [ih]

/-- Cutting loses nothing. -/
theorem cutBefore_append {α : Type} (stop : List α → Bool) (xs : List α) :
    (cutBefore stop xs).1 ++ (cutBefore stop xs).2 = xs :=
  cutBefore_go_append stop [] xs

theorem cutBefore_le {α : Type} (stop : List α → Bool) (xs : List α) :
    (cutBefore stop xs).2.length ≤ xs.length := by
  have h := congrArg List.length (cutBefore_append stop xs)
  simp at h
  omega

end StumpCompiler.Text
