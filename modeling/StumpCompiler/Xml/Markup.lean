import StumpCompiler.Text.Scan
import StumpCompiler.Xml.Error
import StumpCompiler.Xml.Tree

/-!
The small pieces of markup: blanks, quotes, names, comments, instructions and the declaration. A
piece that starts with `<` is read from behind that character, and is told where it stood.
-/

namespace StumpCompiler.Xml

open Text (Position Cursor Scan cutBefore)

/-- The text `word` comes first. -/
def startsWith (word : String) (cs : List Char) : Bool :=
  word.toList.isPrefixOf cs

/-- The text `word` stands somewhere in `cs`. -/
def holds (word : String) (cs : List Char) : Bool :=
  !(cutBefore (startsWith word) cs).2.isEmpty

/-- The character `w` comes next, and is read. -/
def expect (w : Char) : Scan Error Unit := do
  let c ← Scan.here
  match c.rest with
  | [] => Scan.fail .endOfText
  | d :: _ => if d = w then Scan.skip 1 else Scan.fail (.unexpectedChar (.char w) d c.position)

/-- The text `word` comes next, and is read. -/
def expectText (word : String) : Scan Error Unit := do
  let place ← Scan.position
  if ← Scan.accept word then return () else Scan.fail (.missingText word place)

def spaces : Scan Error Unit := do
  let _ ← Scan.takeWhile isSpace

/-- At least one space. -/
def someSpaces : Scan Error Unit := do
  let c ← Scan.here
  match c.rest with
  | [] => Scan.fail .endOfText
  | d :: _ => if isSpace d then spaces else Scan.fail (.unexpectedChar .whitespace d c.position)

/-- An opening quote, which tells the closing one. -/
def quote : Scan Error Char := do
  let c ← Scan.here
  match c.rest with
  | [] => Scan.fail .endOfText
  | d :: _ =>
    if d = '"' || d = '\'' then do
      Scan.skip 1
      return d
    else Scan.fail (.unexpectedChar .quote d c.position)

def equalsSign : Scan Error Unit := do
  spaces
  expect '='
  spaces

/-- The first of the characters from `p` on that no document may hold. -/
def firstForbidden (p : Position) : List Char → Option (Char × Position)
  | [] => none
  | c :: cs => if isXmlChar c then firstForbidden (p.after c) cs else some (c, p)

/-- Only characters that a document may hold, from `p` on. -/
def allowed (p : Position) (cs : List Char) : Except Error Unit :=
  match firstForbidden p cs with
  | none => .ok ()
  | some (c, place) => .error (.nonXmlChar c place)

/-- Characters of the document up to where `stop` holds, or up to the end. -/
def charsUpTo (stop : List Char → Bool) : Scan Error (List Char) := do
  let place ← Scan.position
  let cs ← Scan.upTo stop
  Scan.lift (allowed place cs)
  return cs

/-- A name, in which a colon is a character like others. -/
def plainName : Scan Error (List Char) := do
  let place ← Scan.position
  match ← Scan.peek with
  | none => Scan.fail (.invalidName place)
  | some c => if isNameStart c then Scan.takeWhile isNameChar else Scan.fail (.invalidName place)

/-- A name, unless the text ends here. -/
def skipName : Scan Error Unit := do
  if (← Scan.peek).isSome then
    let _ ← plainName

def qualifiedName : Scan Error Name := do
  let place ← Scan.position
  let cs ← Scan.takeWhile isNameChar
  match Name.ofChars? cs with
  | some name => return name
  | none => Scan.fail (.invalidName place)

/-- An attribute as it is written, with the places of its name and of its value. -/
structure RawAttribute where
  name : Name
  place : Position
  value : List Char
  valuePlace : Position

def rawAttribute : Scan Error RawAttribute := do
  let place ← Scan.position
  let name ← qualifiedName
  equalsSign
  let q ← quote
  let valuePlace ← Scan.position
  let value ← charsUpTo fun cs => cs.head?.any fun c => c = q || c = '<'
  expect q
  return ⟨name, place, value, valuePlace⟩

/-- A comment whose `<` stood at `start`. -/
def comment (start : Position) : Scan Error Node := do
  Scan.skip 3
  let cs ← charsUpTo (startsWith "-->")
  expectText "-->"
  if holds "--" cs || cs.getLast? = some '-' then
    Scan.fail (.doubleHyphen start)
  return .comment (String.ofList cs)

/-- A processing instruction whose `<` stood at `start`. -/
def instruction (start : Position) : Scan Error Node := do
  if ← Scan.sees "?xml " then
    Scan.fail (.misplacedDeclaration start)
  Scan.skip 1
  let target ← plainName
  spaces
  let cs ← charsUpTo (startsWith "?>")
  expectText "?>"
  return .instruction (String.ofList target) (String.ofList cs)

/-- A space between the parts of the declaration; none is needed in front of its end. -/
def declarationSpace : Scan Error Unit := do
  let c ← Scan.here
  match c.rest with
  | [] => return ()
  | d :: _ =>
    if isSpace d then spaces
    else if c.sees "?>" then return ()
    else Scan.fail (.unexpectedChar .whitespace d c.position)

/-- The XML declaration, from its `<`. Its values are not used here. -/
def declaration : Scan Error Unit := do
  Scan.skip 5
  declarationSpace
  let place ← Scan.position
  if !(← Scan.sees "version") then
    Scan.fail (.missingText "version" place)
  let _ ← rawAttribute
  declarationSpace
  if ← Scan.sees "encoding" then
    let _ ← rawAttribute
    declarationSpace
  if ← Scan.sees "standalone" then
    let _ ← rawAttribute
  spaces
  expectText "?>"

/-- Spaces, comments and instructions; `read` holds the nodes read so far, the last one first. -/
def miscellany (read : List Node) : Scan Error (List Node) :=
  Scan.loop (fun read c =>
    if c.rest.head?.any isSpace then some do
      spaces
      return read
    else if c.sees "<!--" then some do
      let node ← comment c.position
      return node :: read
    else if c.sees "<?" then some do
      let node ← instruction c.position
      return node :: read
    else none) read

end StumpCompiler.Xml
