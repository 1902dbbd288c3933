import StumpCompiler.Xml.Markup
import StumpCompiler.Xml.Reference

/-!
The document type declaration. Of what it may hold, only the entities matter later.
-/

namespace StumpCompiler.Xml

open Text (Position Cursor Scan)

/-- Any characters up to the closing quote. -/
def literal : Scan Error Cursor := do
  let q ← quote
  let place ← Scan.position
  let cs ← Scan.upTo fun cs => cs.head? = some q
  expect q
  return ⟨cs, place⟩

/-- A reference to a resource outside the document, and whether there was one. -/
def externalId : Scan Error Bool := do
  if ← Scan.accept "SYSTEM" then
    someSpaces
    let _ ← literal
    return true
  else if ← Scan.accept "PUBLIC" then
    someSpaces
    let _ ← literal
    someSpaces
    let _ ← literal
    return true
  return false

/-- What an entity stands for: a value in the document, or none if it lies outside. -/
def entityDefinition (parameter : Bool) : Scan Error (Option Cursor) := do
  let c ← Scan.here
  match c.rest with
  | [] => Scan.fail .endOfText
  | d :: _ =>
    if d = '"' || d = '\'' then do
      let value ← literal
      return some value
    else if d = 'S' || d = 'P' then do
      if !(← externalId) then
        Scan.fail (.invalidExternalId c.position)
      if !parameter then
        spaces
        if ← Scan.accept "NDATA" then
          someSpaces
          skipName
      return none
    else Scan.fail (.unexpectedChar .entityValue d c.position)

/-- An entity declaration behind its `<`. A parameter entity goes into the same table. -/
def entityDeclaration : Scan Error Entities := do
  Scan.skip 7
  someSpaces
  let parameter ← Scan.accept "%"
  if parameter then
    someSpaces
  let name ← plainName
  someSpaces
  let value ← entityDefinition parameter
  spaces
  expect '>'
  return match value with
    | none => []
    | some value => [(String.ofList name, value)]

/-- A declaration that is passed over, up to its `>`. -/
def otherDeclaration (doctypePlace : Position) : Scan Error Unit := do
  let _ ← Scan.upTo fun cs => cs.head? = some '>'
  if !(← Scan.accept ">") then
    Scan.fail (.unknownToken doctypePlace)

/-- Inside the brackets: the entities so far, and whether the closing bracket was read. -/
structure Subset where
  entities : Entities
  closed : Bool

/-- The end of the declaration behind its closing bracket. -/
def subsetEnd : Scan Error Unit := do
  spaces
  let c ← Scan.here
  match c.rest with
  | [] => Scan.fail .endOfText
  | d :: _ =>
    if d = '>' then Scan.skip 1 else Scan.fail (.unexpectedChar .endOfDoctype d c.position)

/-- What stands between the brackets. A blank is followed by a declaration or by the bracket, so a
text that ends there, or goes on otherwise, is refused. -/
def subset (doctypePlace : Position) : Scan Error Subset :=
  Scan.loop (fun s c =>
    if s.closed then none
    else if c.rest.head?.any isSpace then some do
      spaces
      let place ← Scan.position
      if (← Scan.peek).isNone then
        Scan.fail (.unknownToken place)
      return s
    else if c.sees "<!ENTITY" then some do
      let more ← entityDeclaration
      return { s with entities := s.entities ++ more }
    else if c.sees "<!--" then some do
      let _ ← comment c.position
      return s
    else if c.sees "<?" then some do
      let _ ← instruction c.position
      return s
    else if c.sees "]" then some do
      subsetEnd
      return { s with closed := true }
    else if c.sees "<!ELEMENT" || c.sees "<!ATTLIST" || c.sees "<!NOTATION" then some do
      otherDeclaration doctypePlace
      return s
    else some (Scan.fail (.unknownToken c.position))) ⟨[], false⟩

/-- The whole declaration, from its `<`, for the entities it declares. -/
def doctype : Scan Error Entities := do
  let place ← Scan.position
  Scan.skip 9
  someSpaces
  skipName
  spaces
  let _ ← externalId
  spaces
  let c ← Scan.here
  match c.rest with
  | [] => Scan.fail .endOfText
  | d :: _ =>
    if d = '>' then do
      Scan.skip 1
      return []
    else if d = '[' then do
      Scan.skip 1
      let s ← subset place
      return s.entities
    else Scan.fail (.unexpectedChar .subsetOrEnd d c.position)

end StumpCompiler.Xml
