/-!
The character classes of XML, and qualified names.
-/

namespace StumpCompiler.Xml

def isSpace (c : Char) : Bool :=
  c = ' ' || c = '\t' || c = '\n' || c = '\r'

/-- Above the ASCII range; ranges of code points, both ends included. -/
def nameStartRanges : List (Nat × Nat) := [
  (0xC0, 0xD6), (0xD8, 0xF6), (0xF8, 0x2FF), (0x370, 0x37D), (0x37F, 0x1FFF), (0x200C, 0x200D),
  (0x2070, 0x218F), (0x2C00, 0x2FEF), (0x3001, 0xD7FF), (0xF900, 0xFDCF), (0xFDF0, 0xFFFD),
  (0x10000, 0xEFFFF)]

/-- Above the ASCII range, in addition to the characters that may start a name. -/
def nameExtraRanges : List (Nat × Nat) := [(0xB7, 0xB7), (0x300, 0x36F), (0x203F, 0x2040)]

def within (ranges : List (Nat × Nat)) (c : Char) : Bool :=
  ranges.any fun (least, greatest) => least ≤ c.toNat && c.toNat ≤ greatest

/-- May start a name. -/
def isNameStart (c : Char) : Bool :=
  if c.toNat ≤ 128 then c.isAlpha || c = ':' || c = '_' else within nameStartRanges c

/-- May stand in a name. -/
def isNameChar (c : Char) : Bool :=
  if c.toNat ≤ 128 then c.isAlphanum || c = ':' || c = '_' || c = '-' || c = '.'
  else within nameStartRanges c || within nameExtraRanges c

/-- May stand in a document at all. -/
def isXmlChar (c : Char) : Bool :=
  if c.toNat < 0x20 then isSpace c else c.toNat ≠ 0xFFFE && c.toNat ≠ 0xFFFF

/-- A name with an optional qualifier in front of a colon; the empty qualifier is none. -/
structure Name where
  qualifier : String
  localName : String
  deriving DecidableEq

def Name.text (n : Name) : String :=
  if n.qualifier = "" then n.localName else n.qualifier ++ ":" ++ n.localName

/-- Splits the characters of a name at its colon. There is none if a second colon follows, or if a
part that must not be empty is, or starts with a character that cannot start a name. -/
def Name.ofChars? (cs : List Char) : Option Name :=
  let (first, rest) := cs.span (· ≠ ':')
  let (qualifier, localName) := if rest = [] then ([], first) else (first, rest.tail)
  if !localName.contains ':' && (qualifier.head?.all isNameStart) &&
      (localName.head?.any isNameStart) then
    some ⟨String.ofList qualifier, String.ofList localName⟩
  else none

end StumpCompiler.Xml
