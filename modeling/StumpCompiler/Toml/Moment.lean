import StumpCompiler.Text.Grammar

/-!
Reading TOML dates and times of day. A date must be in the calendar; a minute may have a leap
second.
-/

namespace StumpCompiler.Toml

open Text (Position Scan)
open Text.Scan (refuse one word optional)

/-- A number of exactly `n` digits. -/
def figures (n : Nat) : Scan Position (List Char) :=
  match n with
  | 0 => return []
  | n + 1 => do
    let d ← one Char.isDigit
    return d :: (← figures n)

/-- A number of two digits within bounds. -/
def between (least greatest : Nat) : Scan Position Nat := do
  let n := Text.numberOf 10 (← figures 2)
  if least ≤ n && n ≤ greatest then return n else refuse

def isLeapYear (year : Nat) : Bool :=
  year % 4 = 0 && (year % 100 ≠ 0 || year % 400 = 0)

def daysInMonth (year month : Nat) : Nat :=
  if month = 2 then (if isLeapYear year then 29 else 28)
  else if month = 4 || month = 6 || month = 9 || month = 11 then 30
  else 31

def date : Scan Position Unit := do
  let year := Text.numberOf 10 (← figures 4)
  word "-"
  let month ← between 1 12
  word "-"
  let day ← between 1 31
  if daysInMonth year month < day then refuse

def time : Scan Position Unit := do
  let _ ← between 0 23
  word ":"
  let _ ← between 0 59
  word ":"
  let _ ← between 0 60
  let _ ← optional (· = '.') do
    let first ← one Char.isDigit
    return first :: (← Scan.takeWhile Char.isDigit)

/-- The distance to Greenwich. -/
def offset : Scan Position Unit := do
  match ← one fun c => c = 'Z' || c = 'z' || c = '+' || c = '-' with
  | 'Z' | 'z' => return ()
  | _ =>
    let _ ← between 0 23
    word ":"
    let _ ← between 0 59

/-- A time of day behind a date. -/
def timeOfDate : Scan Position Unit := do
  let _ ← one fun c => c = 'T' || c = 't' || c = ' '
  time
  let _ ← Scan.attempt offset

/-- A date, a time of day or both. -/
def moment : Scan Position Unit := do
  match ← Scan.attempt date with
  | some () => do let _ ← Scan.attempt timeOfDate
  | none => time

end StumpCompiler.Toml
