import StumpCompiler.Xml.Content
import StumpCompiler.Xml.Doctype

/-!
Whole documents: from a text to its tree, or to the first fault.
-/

namespace StumpCompiler.Xml

open Text (Scan)

/-- The root element with its content, from its `<`. -/
def root (entities : Entities) (b : Builder) : Scan Error Builder := do
  let l := outermost entities
  Scan.skip 1
  let (b, opens) ← startTag l b
  if opens then contentAt l b else return b

/-- Everything in front of the root: the nodes, the last one first, and the entities. -/
def prolog : Scan Error (List Node × Entities) := do
  let _ ← Scan.accept "\uFEFF"
  if ← Scan.sees "<?xml " then
    declaration
  let read ← miscellany []
  spaces
  let entities ← if ← Scan.sees "<!DOCTYPE" then doctype else pure []
  let read ← miscellany read
  spaces
  return (read, entities)

/-- A document, read to its end. -/
def document : Scan Error Document := do
  let (read, entities) ← prolog
  let b := { Builder.empty with top := read }
  let b ← if (← Scan.peek) = some '<' then root entities b else pure b
  let more ← miscellany []
  let c ← Scan.here
  if !c.rest.isEmpty then
    Scan.fail (.unknownToken c.position)
  Scan.lift ({ b with top := more ++ b.top }.finish)

/-- The tree of a text. -/
def parse (text : List Char) : Except Error Document :=
  (document.run (.ofChars text)).map Prod.fst

end StumpCompiler.Xml
