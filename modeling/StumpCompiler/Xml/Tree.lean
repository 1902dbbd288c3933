import StumpCompiler.Xml.Name

/-!
Documents as trees. An element is found by its local name, whatever its qualifier.
-/

namespace StumpCompiler.Xml

structure Attribute where
  name : Name
  value : String
  deriving DecidableEq

inductive Node where
  | element (name : Name) (attributes : List Attribute) (children : List Node)
  | text (content : String)
  | comment (content : String)
  | instruction (target content : String)

/-- What stands at the top of a document, in order. -/
abbrev Document := List Node

namespace Node

/-- An element with the local name `tag`. -/
def isNamed (tag : String) : Node → Bool
  | element name _ _ => name.localName == tag
  | _ => false

def children : Node → List Node
  | element _ _ children => children
  | _ => []

/-- The value of the unqualified attribute `tag`. -/
def attribute? (tag : String) : Node → Option String
  | element _ attributes _ => (attributes.find? fun a => a.name == ⟨"", tag⟩).map Attribute.value
  | _ => none

/-- The content of a node that holds exactly one text and nothing else. -/
def singleText? : Node → Option String
  | element _ _ [text content] => some content
  | _ => none

end Node

mutual

/-- A node and everything below it, in document order. -/
def Node.subtree : Node → List Node
  | .element name attributes children => .element name attributes children :: nodes children
  | .text content => [.text content]
  | .comment content => [.comment content]
  | .instruction target content => [.instruction target content]

/-- The nodes of several trees, in document order. -/
def nodes : List Node → List Node
  | [] => []
  | n :: ns => n.subtree ++ nodes ns

end

/-- Everything below a node, in document order. -/
def Node.descendants (n : Node) : List Node :=
  nodes n.children

end StumpCompiler.Xml
