import StumpCompiler.Xml.Name
import StumpCompiler.Text.Cursor
import StumpCompiler.Text.Quoted

/-!
Why a text is not a well-formed document.
-/

namespace StumpCompiler.Xml

open Text (Position)

/-- What the grammar asks for where something else stands. -/
inductive Wanted where
  | char (c : Char)
  | whitespace
  | quote
  | subsetOrEnd
  | endOfDoctype
  | entityValue
  deriving DecidableEq

def Wanted.text : Wanted → String
  | char c => "'" ++ String.singleton c ++ "'"
  | whitespace => "a whitespace"
  | quote => "a quote"
  | subsetOrEnd => "'[' or '>'"
  | endOfDoctype => "'>'"
  | entityValue => "a quote, SYSTEM or PUBLIC"

/-- The first fault of a document, with its place. -/
inductive Error where
  /-- The qualifier `xml` is bound to another namespace than its own. -/
  | wrongXmlNamespace (place : Position)
  /-- The namespace of `xml` is bound to another qualifier. -/
  | reservedXmlNamespace (place : Position)
  | reservedXmlnsNamespace (place : Position)
  | elementQualifiedXmlns (place : Position)
  | duplicatedNamespace (qualifier : String) (place : Position)
  | unknownNamespace (qualifier : String) (place : Position)
  | closeTagMismatch (expected actual : Name) (place : Position)
  /-- A close tag in front of any start tag where it stands. -/
  | strayCloseTag (place : Position)
  | malformedReference (place : Position)
  | unknownEntity (name : String) (place : Position)
  | entityLoop (place : Position)
  | bareLessThan (place : Position)
  | duplicatedAttribute (localName : String) (place : Position)
  | noRoot
  | unclosedRoot
  | misplacedDeclaration (place : Position)
  | invalidName (place : Position)
  | nonXmlChar (c : Char) (place : Position)
  /-- Another character stands where something is wanted. -/
  | unexpectedChar (wanted : Wanted) (actual : Char) (place : Position)
  /-- The text does not go on with the word. -/
  | missingText (wanted : String) (place : Position)
  | invalidExternalId (place : Position)
  | doubleHyphen (place : Position)
  | bareSectionEnd (place : Position)
  | unknownToken (place : Position)
  | endOfText
  deriving DecidableEq

/-- Messages show a character by its first byte, read as a code point. -/
def firstByte (c : Char) : Char :=
  let n := c.toNat
  if n < 0x80 then c
  else if n < 0x800 then Char.ofNat (0xC0 + n / 64)
  else if n < 0x10000 then Char.ofNat (0xE0 + n / 4096)
  else Char.ofNat (0xF0 + n / 262144)

namespace Error

def message : Error → String
  | wrongXmlNamespace p => "'xml' namespace prefix mapped to wrong URI at " ++ p.text
  | reservedXmlNamespace p => "the 'xml' namespace URI is used for not 'xml' prefix at " ++ p.text
  | reservedXmlnsNamespace p =>
    "the 'xmlns' URI is used at " ++ p.text ++ ", but it must not be declared"
  | elementQualifiedXmlns p =>
    "the 'xmlns' prefix is used at " ++ p.text ++ ", but it must not be"
  | duplicatedNamespace q p => "namespace '" ++ q ++ "' at " ++ p.text ++ " is already defined"
  | unknownNamespace q p => "an unknown namespace prefix '" ++ q ++ "' at " ++ p.text
  | closeTagMismatch expected actual p =>
    "expected '" ++ expected.text ++ "' tag, not '" ++ actual.text ++ "' at " ++ p.text
  | strayCloseTag p => "unexpected close tag at " ++ p.text
  | malformedReference p => "malformed entity reference at " ++ p.text
  | unknownEntity name p => "unknown entity reference '" ++ name ++ "' at " ++ p.text
  | entityLoop p => "a possible entity reference loop is detected at " ++ p.text
  | bareLessThan p => "unescaped '<' found at " ++ p.text
  | duplicatedAttribute n p => "attribute '" ++ n ++ "' at " ++ p.text ++ " is already defined"
  | noRoot => "the document does not have a root node"
  | unclosedRoot => "the root node was opened but never closed"
  | misplacedDeclaration p => "unexpected XML declaration at " ++ p.text
  | invalidName p => "invalid name token at " ++ p.text
  | nonXmlChar c p => "a non-XML character " ++ Text.Quoted.char c ++ " found at " ++ p.text
  | unexpectedChar wanted actual p =>
    "expected " ++ wanted.text ++ " not '" ++ String.singleton (firstByte actual) ++ "' at " ++
      p.text
  | missingText wanted p => "expected '" ++ wanted ++ "' at " ++ p.text
  | invalidExternalId p => "invalid ExternalID at " ++ p.text
  | doubleHyphen p => "comment at " ++ p.text ++ " contains '--'"
  | bareSectionEnd p => "']]>' at " ++ p.text ++ " is not allowed inside a character data"
  | unknownToken p => "unknown token at " ++ p.text
  | endOfText => "unexpected end of stream"

end Error

end StumpCompiler.Xml
