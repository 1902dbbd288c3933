import StumpCompiler.Toml.Moment
import StumpCompiler.Toml.Number
import StumpCompiler.Toml.Quoted
import StumpCompiler.Toml.Table

/-!
Reading TOML documents line by line.
-/

namespace StumpCompiler.Toml

open Text (Position Cursor Scan Partial)
open Text.Scan (refuse one word closedBy)

/-- How many brackets may be open at once, and how many parts a key may have. -/
def maxDepth : Nat := 79

def isBare (c : Char) : Bool :=
  c.isAlphanum || c = '_' || c = '-'

/-- A key without dots. -/
def simpleKey : Scan Position String := do
  if ← Scan.accept "\"" then return String.ofList (← basic)
  else if ← Scan.accept "'" then return String.ofList (← literal)
  else do
    let first ← one isBare
    return String.ofList (first :: (← Scan.takeWhile isBare))

/-- A part of a key with blanks around it. -/
def keyPart : Scan Position String := do
  blanks
  let k ← simpleKey
  blanks
  return k

/-- A key, as its last part and what stands in front. -/
def dottedKey : Scan Position (List String × String) := do
  let first ← keyPart
  let (front, last) ← Scan.loop (fun (front, last) c =>
    if c.rest.head? = some '.' then some do
      let k ← keyPart
      return (last :: front, k)
    else none) (([] : List String), first)
  if maxDepth ≤ front.length then refuse
  return (front.reverse, last)

/-- A comment that may come next; its line break is left. -/
def comment : Scan Position Unit := do
  if ← Scan.accept "#" then do let _ ← Scan.takeWhile isPlain

/-- What may stand between the items of an array: blanks, comments and line breaks. -/
def gap : Scan Position Unit :=
  Scan.loop (fun _ c =>
    match c.rest with
    | ' ' :: _ | '\t' :: _ | '\n' :: _ => some (return ())
    | '\r' :: '\n' :: _ => some (Scan.skip 1)
    | '#' :: _ => some do
      let _ ← Scan.takeWhile isPlain
      newline
    | _ => none) ()

/-- The items of an array behind its bracket. A comma may follow the last one. -/
def items {α : Type} (item : Scan Position α) : Scan Position (List α) := do
  gap
  if ← Scan.accept "]" then return []
  let first ← item
  gap
  closedBy (fun s c =>
    match c.rest with
    | ']' :: _ => some (return s.close)
    | ',' :: _ => some do
      gap
      if (← Scan.peek) = some ']' then return s
      let x ← item
      gap
      return s.add x
    | _ => none) ⟨[first], false⟩

/-- A value given to a key, with blanks around it. -/
def assignment (value : Scan Position Value) : Scan Position (List String × String × Value) := do
  let (path, key) ← dottedKey
  word "="
  blanks
  let v ← value
  blanks
  return (path, key, v)

/-- The assignments of a table between braces, behind the opening one. They stand in one line, and
no comma follows the last. -/
def assignments (value : Scan Position Value) :
    Scan Position (List (List String × String × Value)) := do
  blanks
  if ← Scan.accept "\x7d" then return []
  let first ← assignment value
  closedBy (fun s c =>
    match c.rest with
    | '\x7d' :: _ => some (return s.close)
    | ',' :: _ => some do return s.add (← assignment value)
    | _ => none) ⟨[first], false⟩

/-- A value without brackets or braces. -/
def scalar : Scan Position Value := do
  match ← Scan.peek with
  | some '"' | some '\'' => return .string (← anyString)
  | some 't' => do
    word "true"
    return .boolean true
  | some 'f' => do
    word "false"
    return .boolean false
  | _ =>
    match ← Scan.attempt (Scan.withText moment) with
    | some (text, ()) => return .moment (String.ofList text)
    | none => number

/-- A value in which at most `depth` brackets are open at once. -/
def value : Nat → Scan Position Value
  | 0 => scalar
  | depth + 1 => do
    match ← Scan.peek with
    | some '[' =>
      Scan.skip 1
      return .array (← items (value depth))
    | some '\x7b' =>
      Scan.skip 1
      match Table.ofAssignments (← assignments (value depth)) with
      | some t => return .table t
      | none => refuse
    | _ => scalar

/-- What a line says, if it says anything. -/
def statement : Scan Position (Option Statement) := do
  if ← Scan.accept "[[" then do
    let (path, key) ← dottedKey
    word "]]"
    return some (.arrayHeader path key)
  else if ← Scan.accept "[" then do
    let (path, key) ← dottedKey
    word "]"
    return some (.header path key)
  else match ← Scan.peek with
    | none | some '#' | some '\n' | some '\r' => return none
    | some _ => do
      let (path, key, v) ← assignment (value maxDepth)
      return some (.assignment path key v)

/-- A line without its end. -/
def line : Scan Position (Option Statement) := do
  blanks
  let s ← statement
  blanks
  comment
  return s

/-- All lines; a line break stands between two of them. -/
def lines : Scan Position (List Statement) := do
  let first ← line
  let ss ← Scan.loop (fun ss c =>
    match c.rest with
    | '\n' :: _ => some do return (← line).toList ++ ss
    | '\r' :: '\n' :: _ => some do
      Scan.skip 1
      return (← line).toList ++ ss
    | _ => none) first.toList
  return ss.reverse

/-- The table of a document; none if the text is no TOML. A byte order mark may stand in front. -/
def parse? (text : List Char) : Option Table :=
  let text := if text.head? = some '\uFEFF' then text.tail else text
  match Scan.whole lines id text with
  | .error _ => none
  | .ok ss => tableOf ss

end StumpCompiler.Toml
