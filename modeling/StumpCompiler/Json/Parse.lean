import StumpCompiler.Json.Value
import StumpCompiler.Text.Grammar

/-!
Reading JSON. A text that is no JSON is refused at the place where it stops being so. Nesting is not
limited: a text of `n` characters cannot nest deeper than `n`.
-/

namespace StumpCompiler.Json

open Text (Position Cursor Scan Partial)
open Text.Scan (refuse one word optional closedBy)

def isSpace (c : Char) : Bool :=
  c = ' ' || c = '\t' || c = '\n' || c = '\r'

def spaces : Scan Position Unit := do
  let _ ← Scan.takeWhile isSpace

/-- The number of an escape, behind its backslash. -/
def escaped : Scan Position Nat := do
  let c ← one fun _ => true
  match c with
  | '"' | '\\' | '/' => return c.toNat
  | 'b' => return 0x08
  | 'f' => return 0x0C
  | 'n' => return 0x0A
  | 'r' => return 0x0D
  | 't' => return 0x09
  | 'u' => return Text.numberOf 16 (← Scan.hexDigits 4)
  | _ => refuse

def isHigh (n : Nat) : Bool := 0xD800 ≤ n && n < 0xDC00

def isLow (n : Nat) : Bool := 0xDC00 ≤ n && n < 0xE000

/-- The characters of a string that is given by numbers, some of which may be halves of surrogate
pairs. -/
def joinPairs : List Nat → Option (List Char)
  | [] => some []
  | n :: ns =>
    if isLow n then none
    else if isHigh n then
      match ns with
      | [] => none
      | m :: ns =>
        if isLow m then
          (joinPairs ns).map (Char.ofNat (0x10000 + (n - 0xD800) * 1024 + (m - 0xDC00)) :: ·)
        else none
    else (joinPairs ns).map (Char.ofNat n :: ·)

def stringStep (s : Partial Nat) (c : Cursor) : Option (Scan Position (Partial Nat)) :=
  match c.rest with
  | [] => none
  | '"' :: _ => some (return s.close)
  | '\\' :: _ => some do return s.add (← escaped)
  | d :: _ => if d.toNat < 0x20 then none else some (return s.add d.toNat)

/-- A string behind its opening quote. -/
def stringBody : Scan Position (Option String) := do
  return (joinPairs (← closedBy stringStep .start)).map String.ofList

def digits : Scan Position (List Char) := do
  let first ← one Char.isDigit
  return first :: (← Scan.takeWhile Char.isDigit)

/-- A number; a zero in front stands alone. -/
def number : Scan Position (List Char) := do
  let sign ← optional (· = '-') (return [])
  let first ← one Char.isDigit
  let whole ← if first = '0' then pure [] else Scan.takeWhile Char.isDigit
  let fraction ← optional (· = '.') digits
  let exponent ← optional (fun c => c = 'e' || c = 'E') do
    let sign ← optional (fun c => c = '+' || c = '-') (return [])
    return sign ++ (← digits)
  return sign ++ first :: whole ++ fraction ++ exponent

/-- Items with commas between them, behind the opening bracket, up to the closing one. -/
def separated {α : Type} (close : Char) (item : Scan Position α) : Scan Position (List α) := do
  spaces
  if (← Scan.peek) = some close then
    Scan.skip 1
    return []
  let first ← item
  spaces
  closedBy (fun s c =>
    if c.rest.head? = some ',' then some do
      spaces
      let x ← item
      spaces
      return s.add x
    else if c.rest.head? = some close then some (return s.close)
    else none) ⟨[first], false⟩

/-- A member of an object. -/
def member (value : Scan Position Value) : Scan Position (Option String × Value) := do
  let _ ← one (· = '"')
  let key ← stringBody
  spaces
  let _ ← one (· = ':')
  spaces
  let v ← value
  return (key, v)

/-- A value that nests less than `depth` deep. -/
def value : Nat → Scan Position Value
  | 0 => refuse
  | depth + 1 => do
    match ← Scan.peek with
    | none => refuse
    | some '"' =>
      Scan.skip 1
      return .string (← stringBody)
    | some '[' =>
      Scan.skip 1
      return .array (← separated ']' (value depth))
    | some '\x7b' =>
      Scan.skip 1
      return .object (← separated '\x7d' (member (value depth)))
    | some 't' =>
      word "true"
      return .bool true
    | some 'f' =>
      word "false"
      return .bool false
    | some 'n' =>
      word "null"
      return .null
    | some _ => return .number (String.ofList (← number))

/-- The value of a text. -/
def parse (text : List Char) : Except Position Value :=
  Scan.whole (do
    spaces
    let v ← value (text.length + 1)
    spaces
    return v) id text

end StumpCompiler.Json
