import StumpCompiler.Xml.Builder
import StumpCompiler.Xml.Markup
import StumpCompiler.Xml.Reference

/-!
The content of elements. The value of an entity is read as content of its own, in place of the
reference; it may open elements that it does not close, and close one that it did not open.
-/

namespace StumpCompiler.Xml

open Text (Position Cursor Scan)

/-- How many entities may be open inside each other. -/
def nestingLimit : Nat := 10

/-- How many references may be followed inside one entity. -/
def referenceLimit : Nat := 255

/-- What references mean at one depth of entities. -/
structure Level where
  entities : Entities
  /-- Inside the value of an entity. -/
  nested : Bool
  /-- Reads an entity's value as content; the place is the one behind the reference. -/
  expandContent : Position → Cursor → Builder → Except Error Builder
  /-- An entity's value inside an attribute, with the number of references followed. -/
  expandValue : Position → Cursor → Nat → Except Error (List Char × Nat)

/-- Appends a character to a buffer that holds the last character first. A carriage return, with a
line feed behind it or without, counts as a line feed; one that is last in its text does so at
once. -/
def push (buffer : List Char) (c : Char) (last : Bool) : List Char :=
  let d := if last && c = '\r' then '\n' else c
  match buffer with
  | '\r' :: buffer => if c = '\n' then '\n' :: buffer else d :: '\n' :: buffer
  | buffer => d :: buffer

/-- The text of a section that is taken literally, but for its line ends. -/
def sectionText (buffer : List Char) : List Char → List Char
  | [] => buffer.reverse
  | c :: cs => sectionText (push buffer c cs.isEmpty) cs

/-- Adds what is in a buffer, if anything. -/
def Builder.flush (b : Builder) (buffer : List Char) : Builder :=
  if buffer.isEmpty then b else b.addText (String.ofList buffer.reverse)

namespace Level

/-- Adds the pieces of a text run. A character that follows a numbered one is taken as it is, which
`raw` says. -/
def addRun (l : Level) (buffer : List Char) (raw : Bool) (b : Builder) :
    List Piece → Except Error Builder
  | [] => .ok (b.flush buffer)
  | .char c :: ps =>
    l.addRun (if raw then c :: buffer else push buffer c ps.isEmpty) false b ps
  | .unclosed place :: _ => .error (.malformedReference place)
  | .reference body place behind :: ps =>
    match Reference.ofChars? body with
    | none => .error (.malformedReference place)
    | some (.char c) =>
      if l.nested then l.addRun (push buffer c ps.isEmpty) raw b ps
      else l.addRun (c :: buffer) true b ps
    | some (.entity name) =>
      match l.entities.find? name with
      | none => .error (.unknownEntity name place)
      | some value => do
        let b ← l.expandContent behind value (b.flush buffer)
        l.addRun [] false b ps

/-- Attribute values have a blank for every character that ends a line or is a tab. -/
def blank (c : Char) : Char :=
  if isSpace c then ' ' else c

/-- The normalised value of the pieces of an attribute. `read` holds what is done, the last
character first, and `references` the number of references followed. -/
def normalise (l : Level) (read : List Char) (references : Nat) :
    List Piece → Except Error (List Char × Nat)
  | [] => .ok (read.reverse, references)
  | .char c :: ps =>
    if c = '\r' && ps.head?.any (fun p => p matches .char '\n') then l.normalise read references ps
    else l.normalise (blank c :: read) references ps
  | .unclosed place :: _ => .error (.malformedReference place)
  | .reference body place behind :: ps =>
    match Reference.ofChars? body with
    | none => .error (.malformedReference place)
    | some (.char c) =>
      if !l.nested then l.normalise (c :: read) references ps
      else if c = '<' then .error (.bareLessThan place)
      else l.normalise (blank c :: read) references ps
    | some (.entity name) =>
      match l.entities.find? name with
      | none => .error (.unknownEntity name place)
      | some value => do
        let (cs, references) ← l.expandValue behind value references
        l.normalise (cs.reverse ++ read) references ps

/-- One more reference, followed from this depth. -/
def follow (nested : Bool) (references : Nat) (place : Position) : Except Error Nat :=
  if !nested then .ok references
  else if references = referenceLimit then .error (.entityLoop place)
  else .ok (references + 1)

end Level

/-- A start tag while it is read. -/
structure TagState where
  builder : Builder
  /-- Once the tag has ended: whether content follows. -/
  opens : Option Bool

/-- Reads one attribute and takes it in. -/
def tagAttribute (l : Level) (s : TagState) : Scan Error TagState := do
  let raw ← rawAttribute
  let (value, references) ←
    Scan.lift (l.normalise [] s.builder.references (pieces raw.valuePlace raw.value))
  let b := { s.builder with references }
  let builder ← Scan.lift (b.addAttribute ⟨raw.name, String.ofList value⟩ raw.place)
  return { s with builder }

/-- The end of a tag, or the next attribute. A space stands in front of every attribute. -/
def tagStep (l : Level) (s : TagState) (c : Cursor) : Option (Scan Error TagState) :=
  if s.opens.isSome then none
  else match c.rest with
    | [] => none
    | '/' :: _ => some do
      expect '>'
      return { s with opens := some false }
    | '>' :: _ => some (return { s with opens := some true })
    | d :: _ =>
      if isSpace d then some do
        spaces
        match ← Scan.peek with
        | none => Scan.fail .endOfText
        | some '/' =>
          Scan.skip 1
          expect '>'
          return { s with opens := some false }
        | some '>' =>
          Scan.skip 1
          return { s with opens := some true }
        | some _ => tagAttribute l s
      else some (Scan.fail (.unexpectedChar .whitespace d c.position))

/-- A start tag behind its `<`, and whether content follows. A tag that the text breaks off adds no
element. -/
def startTag (l : Level) (b : Builder) : Scan Error (Builder × Bool) := do
  let place ← Scan.position
  let name ← qualifiedName
  if name.qualifier = "xmlns" then
    Scan.fail (.elementQualifiedXmlns place)
  let s ← Scan.loop (tagStep l) ⟨b.start, none⟩
  match s.opens with
  | none => return (s.builder, false)
  | some true => return (← Scan.lift (s.builder.openElement name place), true)
  | some false => return (← Scan.lift (s.builder.addElement name place), false)

/-- A close tag behind its `<`. -/
def closeTag : Scan Error Name := do
  Scan.skip 1
  let name ← qualifiedName
  spaces
  expect '>'
  return name

/-- A literal section behind its `<`. -/
def literalSection : Scan Error String := do
  Scan.skip 8
  let cs ← charsUpTo (startsWith "]]>")
  expectText "]]>"
  return String.ofList (sectionText [] cs)

/-- A run of text up to the next `<`, behind its first character `first`, which stood at `start`. -/
def textRun (start : Position) (first : Char) : Scan Error (List Char) := do
  let more ← Scan.upTo fun cs => cs.head? = some '<'
  let run := first :: more
  Scan.lift (allowed start run)
  if holds "]]>" run then
    Scan.fail (.bareSectionEnd (← Scan.position))
  return run

/-- Content while it is read: what is built, and how many contents are open inside each other in
this text. -/
structure ContentState where
  depth : Nat
  builder : Builder

/-- The next piece of content. A close tag leaves the innermost content, whatever it closes. -/
def contentStep (l : Level) (s : ContentState) (c : Cursor) : Option (Scan Error ContentState) :=
  if s.depth = 0 then none
  else match c.rest with
    | [] => none
    | '<' :: '/' :: _ => some do
      let name ← closeTag
      let builder ← Scan.lift (s.builder.close name c.position)
      return ⟨s.depth - 1, builder⟩
    | '<' :: '!' :: _ =>
      if c.sees "<!--" then some do
        let node ← comment c.position
        return { s with builder := s.builder.addNode node }
      else if c.sees "<![CDATA[" then some do
        let text ← literalSection
        return { s with builder := s.builder.addText text }
      else some (Scan.fail (.unknownToken c.position))
    | '<' :: '?' :: _ => some do
      let node ← instruction c.position
      return { s with builder := s.builder.addNode node }
    | ['<'] => some (Scan.fail (.unknownToken c.position))
    | '<' :: _ => some do
      let (builder, opens) ← startTag l s.builder
      return ⟨if opens then s.depth + 1 else s.depth, builder⟩
    | d :: _ => some do
      let run ← textRun c.position d
      let builder ← Scan.lift (l.addRun [] false s.builder (pieces c.position run))
      return { s with builder }

/-- Content up to the close tag that leaves it, or up to the end of the text. -/
def contentAt (l : Level) (b : Builder) : Scan Error Builder := do
  let s ← Scan.loop (contentStep l) ⟨1, b⟩
  return s.builder

/-- What references mean where `room` more entities may be opened inside each other. -/
def level (entities : Entities) : Nat → Level
  | 0 => {
      entities
      nested := true
      expandContent := fun behind _ _ => .error (.entityLoop behind)
      expandValue := fun behind _ _ => .error (.entityLoop behind) }
  | room + 1 =>
    let nested := room + 1 < nestingLimit
    let inner := level entities room
    { entities
      nested
      expandContent := fun behind value b => do
        let references ← Level.follow nested b.references behind
        let (b', _) ← (contentAt inner { b with started := false, references }).run value
        return { b' with
          started := b.started
          references := if nested then b'.references else 0 }
      expandValue := fun behind value references => do
        let references ← Level.follow nested references behind
        let (cs, references) ← inner.normalise [] references (pieces value.position value.rest)
        return (cs, if nested then references else 0) }

/-- The meaning of references outside all entities. -/
def outermost (entities : Entities) : Level :=
  level entities nestingLimit

end StumpCompiler.Xml
