import StumpCompiler.Xml.Attributes

/-!
A document under construction: the finished nodes, the elements that are still open, and the
attributes that no element has yet. Text joins the text in front of it unless markup stood between
them, even markup that came to nothing.
-/

namespace StumpCompiler.Xml

open Text (Position)

/-- An open element. Its children so far stand in reverse order. -/
structure Frame where
  name : Name
  attributes : List Attribute
  scope : Namespaces
  children : List Node

structure Builder where
  /-- What is finished at the top of the document, in reverse order. -/
  top : List Node
  /-- The open elements, the innermost first. -/
  frames : List Frame
  /-- The attributes read since the last complete tag. A start tag that the end of an entity's value
  breaks off leaves its own to the next tag. -/
  pending : Attributes
  /-- A start tag was read since the document, or the value of the current entity, began. -/
  started : Bool
  /-- Text was read, and no tag, comment or instruction since. -/
  joins : Bool
  /-- How many references were followed inside the outermost entity that is being expanded. -/
  references : Nat

/-- A text joins the text that stands in front of it. -/
def joinText (s : String) : List Node → List Node
  | .text t :: ns => .text (t ++ s) :: ns
  | ns => .text s :: ns

namespace Builder

def empty : Builder := ⟨[], [], .empty, false, false, 0⟩

/-- Changes the children of the innermost open element, or the top if none is open. -/
def modifyChildren (b : Builder) (f : List Node → List Node) : Builder :=
  match b.frames with
  | [] => { b with top := f b.top }
  | frame :: frames => { b with frames := { frame with children := f frame.children } :: frames }

def addNode (b : Builder) (n : Node) : Builder :=
  { b.modifyChildren (n :: ·) with joins := false }

def addText (b : Builder) (s : String) : Builder :=
  { b.modifyChildren (if b.joins then joinText s else (.text s :: ·)) with joins := true }

/-- The namespaces that hold inside the innermost open element. -/
def scope (b : Builder) : Namespaces :=
  match b.frames with
  | [] => []
  | frame :: _ => frame.scope

/-- A start tag begins. -/
def start (b : Builder) : Builder :=
  { b with started := true, joins := false }

/-- Takes in an attribute of the start tag that is being read. -/
def addAttribute (b : Builder) (a : Attribute) (place : Position) : Except Error Builder := do
  return { b with pending := ← b.pending.add a place }

/-- A tag is complete: checks the pending attributes, and leaves none. -/
def takePending (b : Builder) : Except Error (Namespaces × List Attribute × Builder) := do
  let (scope, attributes) ← b.pending.complete b.scope
  return (scope, attributes, { b with pending := .empty })

/-- Opens an element; its start tag is complete. -/
def openElement (b : Builder) (name : Name) (place : Position) : Except Error Builder := do
  let (scope, attributes, b) ← b.takePending
  checkQualifier scope name place
  return { b with frames := ⟨name, attributes, scope, []⟩ :: b.frames, joins := false }

/-- Adds an element without content; its tag is complete. -/
def addElement (b : Builder) (name : Name) (place : Position) : Except Error Builder := do
  let (scope, attributes, b) ← b.takePending
  checkQualifier scope name place
  return b.addNode (.element name attributes [])

/-- Closes the innermost open element by a tag with its name. Behind the last element that was open,
a close tag of any name is passed over. -/
def close (b : Builder) (name : Name) (place : Position) : Except Error Builder := do
  if !b.started then .error (.strayCloseTag place)
  else
    let (_, _, b) ← b.takePending
    match b.frames with
    | [] => return { b with joins := false }
    | frame :: frames =>
      if frame.name ≠ name then .error (.closeTagMismatch frame.name name place)
      else
        let node := .element frame.name frame.attributes frame.children.reverse
        return { b with frames }.addNode node

/-- The finished document. -/
def finish (b : Builder) : Except Error Document :=
  match b.frames with
  | _ :: _ => .error .unclosedRoot
  | [] =>
    if b.top.any (fun n => n matches .element ..) then .ok b.top.reverse else .error .noRoot

end Builder

end StumpCompiler.Xml
