import StumpCompiler.Text.Cursor
import StumpCompiler.Xml.Name

/-!
References in text and in attribute values.
-/

namespace StumpCompiler.Xml

open Text (Position Cursor)

/-- What stands between `&` and `;`. -/
inductive Reference where
  | char (c : Char)
  | entity (name : String)
  deriving DecidableEq

/-- The names that need no declaration. -/
def predefined? : String → Option Char
  | "quot" => some '"'
  | "amp" => some '&'
  | "apos" => some '\''
  | "lt" => some '<'
  | "gt" => some '>'
  | _ => none

def digitValue (c : Char) : Nat :=
  if c.isDigit then c.toNat - 48
  else if 'a' ≤ c then c.toNat - 87
  else c.toNat - 55

def isHexDigit (c : Char) : Bool :=
  c.isDigit || ('a' ≤ c && c ≤ 'f') || ('A' ≤ c && c ≤ 'F')

def numeral (base : Nat) (digits : List Char) : Nat :=
  digits.foldl (fun n c => n * base + digitValue c) 0

/-- The character with a number. The number is of 32 bits; one that no character has stands for the
replacement character, and the character is one that a document may hold. -/
def numbered? (n : Nat) : Option Char :=
  if n < Nat.pow 2 32 then
    let c := if n.isValidChar then Char.ofNat n else '\uFFFD'
    if isXmlChar c then some c else none
  else none

/-- Reads what stands between `&` and `;`. -/
def Reference.ofChars? (body : List Char) : Option Reference :=
  match body with
  | [] => none
  | '#' :: 'x' :: digits =>
    if !digits.isEmpty && digits.all isHexDigit then (numbered? (numeral 16 digits)).map char
    else none
  | '#' :: digits =>
    if !digits.isEmpty && digits.all Char.isDigit then (numbered? (numeral 10 digits)).map char
    else none
  | c :: cs =>
    if isNameStart c && cs.all isNameChar then
      let name := String.ofList (c :: cs)
      match predefined? name with
      | some c => some (char c)
      | none => some (entity name)
    else none

/-- A run of text, taken apart. -/
inductive Piece where
  | char (c : Char)
  /-- What stands between `&` and `;`, with the place of the `&` and the place behind the `;`. -/
  | reference (body : List Char) (place behind : Position)
  /-- An `&` that no `;` follows. -/
  | unclosed (place : Position)

/-- Takes a run apart that starts at `p`. Inside a reference, `opened` holds its place and what
was read of it, the last character first. -/
def piecesFrom (opened : Option (Position × List Char)) (p : Position) : List Char → List Piece
  | [] => match opened with
    | none => []
    | some (place, _) => [.unclosed place]
  | c :: cs => match opened with
    | none =>
      if c = '&' then piecesFrom (some (p, [])) (p.after c) cs
      else .char c :: piecesFrom none (p.after c) cs
    | some (place, body) =>
      if c = ';' then .reference body.reverse place (p.after c) :: piecesFrom none (p.after c) cs
      else piecesFrom (some (place, c :: body)) (p.after c) cs

def pieces (p : Position) (cs : List Char) : List Piece :=
  piecesFrom none p cs

/-- Declared entities with their values, each at its place in the document. -/
abbrev Entities := List (String × Cursor)

/-- The first declaration of a name counts. -/
def Entities.find? (entities : Entities) (name : String) : Option Cursor :=
  entities.lookup name

end StumpCompiler.Xml
