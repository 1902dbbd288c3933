import StumpCompiler.Text.Scan

/-!
Scanners for grammars in which one place is enough to tell what is wrong: a text is refused at the
place where it stops following the grammar.
-/

namespace StumpCompiler.Text

/-- What was read of a list or a string, the last part first, and whether its end was read. -/
structure Partial (α : Type) where
  read : List α
  closed : Bool

namespace Partial

variable {α : Type}

def start : Partial α := ⟨[], false⟩

def add (s : Partial α) (a : α) : Partial α :=
  { s with read := a :: s.read }

def close (s : Partial α) : Partial α :=
  { s with closed := true }

end Partial

namespace Scan

variable {α : Type}

/-- Refuses the text where it stands. -/
def refuse : Scan Position α := do
  fail (← position)

/-- The next character, which must satisfy `p`. -/
def one (p : Char → Bool) : Scan Position Char := do
  match ← peek with
  | some c =>
    if p c then do
      skip 1
      return c
    else refuse
  | none => refuse

/-- The text `w`, which must come next. -/
def word (w : String) : Scan Position Unit := do
  if ← accept w then return () else refuse

/-- A character that satisfies `p`, with what `more` reads behind it; nothing if no such character
comes next. -/
def optional (p : Char → Bool) (more : Scan Position (List Char)) :
    Scan Position (List Char) := do
  match ← peek with
  | some c =>
    if p c then do
      skip 1
      return c :: (← more)
    else return []
  | none => return []

/-- All parts that `step` reads, which must end by closing the list. -/
def closedBy (step : Partial α → Cursor → Option (Scan Position (Partial α)))
    (s : Partial α) : Scan Position (List α) := do
  let s ← loop (fun s c => if s.closed then none else step s c) s
  if s.closed then return s.read.reverse else refuse

end Scan

def isHexDigit (c : Char) : Bool :=
  c.isDigit || ('a' ≤ c && c ≤ 'f') || ('A' ≤ c && c ≤ 'F')

/-- The number that a hexadecimal digit stands for. -/
def digitValue (c : Char) : Nat :=
  if c.isDigit then c.toNat - 48
  else if 'a' ≤ c then c.toNat - 87
  else c.toNat - 55

/-- The number that digits stand for. -/
def numberOf (base : Nat) (ds : List Char) : Nat :=
  ds.foldl (fun n d => n * base + digitValue d) 0

/-- A number with exactly `n` hexadecimal digits. -/
def Scan.hexDigits : Nat → Scan Position (List Char)
  | 0 => return []
  | n + 1 => do
    let d ← one isHexDigit
    return d :: (← hexDigits n)

end StumpCompiler.Text
