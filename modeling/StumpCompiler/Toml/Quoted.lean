import StumpCompiler.Text.Grammar

/-!
Reading the four kinds of TOML strings: between quotes or apostrophes, once or three times. Only
quotes allow escapes; only three of a kind allow line breaks.
-/

namespace StumpCompiler.Toml

open Text (Position Cursor Scan Partial)
open Text.Scan (refuse one word closedBy)

/-- Spaces and tabs. -/
def isBlank (c : Char) : Bool := c = ' ' || c = '\t'

/-- No control character, the tab apart. -/
def isPlain (c : Char) : Bool :=
  c = '\t' || (0x20 ≤ c.toNat && c.toNat ≠ 0x7F)

def blanks : Scan Position Unit := do
  let _ ← Scan.takeWhile isBlank

/-- The end of a line. -/
def newline : Scan Position Unit := do
  if ← Scan.accept "\n" then return () else word "\r\n"

/-- The character that an escape with `n` hexadecimal digits names. -/
def escapedNumber (n : Nat) : Scan Position Char := do
  let code := Text.numberOf 16 (← Scan.hexDigits n)
  if code.isValidChar then return Char.ofNat code else refuse

/-- The character of an escape, behind its backslash. -/
def escapedChar : Scan Position Char := do
  match ← one fun _ => true with
  | 'b' => return '\x08'
  | 't' => return '\t'
  | 'n' => return '\n'
  | 'f' => return '\x0c'
  | 'r' => return '\r'
  | '"' => return '"'
  | '\\' => return '\\'
  | 'u' => escapedNumber 4
  | 'U' => escapedNumber 8
  | _ => refuse

def basicStep (s : Partial Char) (c : Cursor) : Option (Scan Position (Partial Char)) :=
  match c.rest with
  | [] => none
  | '"' :: _ => some (return s.close)
  | '\\' :: _ => some do return s.add (← escapedChar)
  | d :: _ => if isPlain d then some (return s.add d) else none

/-- A string behind its quote. -/
def basic : Scan Position (List Char) :=
  closedBy basicStep .start

def literalStep (s : Partial Char) (c : Cursor) : Option (Scan Position (Partial Char)) :=
  match c.rest with
  | [] => none
  | '\'' :: _ => some (return s.close)
  | d :: _ => if isPlain d then some (return s.add d) else none

/-- A string behind its apostrophe. -/
def literal : Scan Position (List Char) :=
  closedBy literalStep .start

/-- What a run of quotes or apostrophes does to a string between three of them. Less than three
belong to the string. Three end it, and one or two in front of these still belong to it. -/
def delimiterStep (q : Char) (s : Partial Char) (c : Cursor) :
    Option (Scan Position (Partial Char)) :=
  let run := (c.rest.takeWhile (· = q)).length
  if run < 3 then some (return s.add q)
  else if run ≤ 5 then some do
    Scan.skip (run - 1)
    return Partial.close { s with read := List.replicate (run - 3) q ++ s.read }
  else none

/-- A line break inside a string; both kinds read as a line feed. -/
def breakStep (s : Partial Char) (c : Cursor) : Option (Scan Position (Partial Char)) :=
  if c.sees "\n" then some (return s.add '\n')
  else if c.sees "\r\n" then some do
    Scan.skip 1
    return s.add '\n'
  else none

/-- The rest of a line that ends in a backslash, and all blank lines below it. -/
def continuation : Scan Position Unit := do
  blanks
  newline
  Scan.loop (fun _ c =>
    match c.rest with
    | ' ' :: _ | '\t' :: _ | '\n' :: _ => some (return ())
    | '\r' :: '\n' :: _ => some (Scan.skip 1)
    | _ => none) ()

def longBasicStep (s : Partial Char) (c : Cursor) : Option (Scan Position (Partial Char)) :=
  match c.rest with
  | [] => none
  | '"' :: _ => delimiterStep '"' s c
  | '\\' :: _ => some do
    match ← Scan.attempt continuation with
    | some () => return s
    | none => return s.add (← escapedChar)
  | d :: _ => if isPlain d then some (return s.add d) else breakStep s c

def longLiteralStep (s : Partial Char) (c : Cursor) : Option (Scan Position (Partial Char)) :=
  match c.rest with
  | [] => none
  | '\'' :: _ => delimiterStep '\'' s c
  | d :: _ => if isPlain d then some (return s.add d) else breakStep s c

/-- A string behind three quotes or apostrophes. A line break that follows these at once does not
belong to it. -/
def long (step : Partial Char → Cursor → Option (Scan Position (Partial Char))) :
    Scan Position (List Char) := do
  let _ ← Scan.attempt newline
  closedBy step .start

/-- A string of any kind. -/
def anyString : Scan Position String := do
  if ← Scan.accept "\"\"\"" then return String.ofList (← long longBasicStep)
  else if ← Scan.accept "'''" then return String.ofList (← long longLiteralStep)
  else if ← Scan.accept "\"" then return String.ofList (← basic)
  else do
    word "'"
    return String.ofList (← literal)

end StumpCompiler.Toml
