import StumpCompiler.Xml.Error
import StumpCompiler.Xml.Tree

/-!
The attributes of start tags: which of them declare namespaces, and which namespaces the names of
the others and of the element itself need.
-/

namespace StumpCompiler.Xml

open Text (Position)

/-- Qualifiers with their namespaces, the innermost declaration first. The empty qualifier stands
for the default namespace. -/
abbrev Namespaces := List (String × String)

def xmlNamespace : String := "http://www.w3.org/XML/1998/namespace"

def xmlnsNamespace : String := "http://www.w3.org/2000/xmlns/"

/-- Attributes that are read and belong to no element yet. -/
structure Attributes where
  /-- Declared by them, in order. -/
  namespaces : Namespaces
  /-- The others with their places, in order. -/
  plain : List (Attribute × Position)

namespace Attributes

def empty : Attributes := ⟨[], []⟩

/-- Takes one more attribute in. The value is the normalised one. -/
def add (as : Attributes) (a : Attribute) (place : Position) : Except Error Attributes :=
  if a.name.qualifier = "xmlns" then
    if a.value = xmlnsNamespace then .error (.reservedXmlnsNamespace place)
    else if a.name.localName = "xml" then
      if a.value = xmlNamespace then .ok as else .error (.wrongXmlNamespace place)
    else if a.value = xmlNamespace then .error (.reservedXmlNamespace place)
    else if as.namespaces.any (·.1 = a.name.localName) then
      .error (.duplicatedNamespace a.name.localName place)
    else .ok { as with namespaces := as.namespaces ++ [(a.name.localName, a.value)] }
  else if a.name.localName = "xmlns" then
    if a.value = xmlNamespace then .error (.reservedXmlNamespace place)
    else if a.value = xmlnsNamespace then .error (.reservedXmlnsNamespace place)
    else .ok { as with namespaces := as.namespaces ++ [("", a.value)] }
  else .ok { as with plain := as.plain ++ [(a, place)] }

/-- The namespace of an attribute; an unqualified one has none. -/
def namespaceOf (scope : Namespaces) (n : Name) (place : Position) :
    Except Error (Option String) :=
  if n.qualifier = "xml" then .ok (some xmlNamespace)
  else if n.qualifier = "" then .ok none
  else match scope.lookup n.qualifier with
    | some uri => .ok (some uri)
    | none => .error (.unknownNamespace n.qualifier place)

/-- Every attribute has a namespace, and no two have the same one and the same local name. `seen`
holds those of the attributes in front. -/
def distinct (scope : Namespaces) (seen : List (Option String × String)) :
    List (Attribute × Position) → Except Error Unit
  | [] => .ok ()
  | (a, place) :: rest => do
    let uri ← namespaceOf scope a.name place
    let expanded := (uri, a.name.localName)
    if seen.contains expanded then .error (.duplicatedAttribute a.name.localName place)
    else distinct scope (expanded :: seen) rest

/-- Checks the attributes of a complete tag inside `outer`, for the namespaces in scope and the
attributes that declare none. -/
def complete (as : Attributes) (outer : Namespaces) :
    Except Error (Namespaces × List Attribute) := do
  let scope := as.namespaces ++ outer
  distinct scope [] as.plain
  return (scope, as.plain.map Prod.fst)

end Attributes

/-- The qualifier of an element, if it has one, is declared. -/
def checkQualifier (scope : Namespaces) (n : Name) (place : Position) : Except Error Unit :=
  if n.qualifier = "" || (scope.lookup n.qualifier).isSome then .ok ()
  else .error (.unknownNamespace n.qualifier place)

end StumpCompiler.Xml
