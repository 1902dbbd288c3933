import StumpCompiler.Fault
import StumpCompiler.Text.Cursor

/-!
The text of a model file. A file whose XML declaration names ISO-8859-1 has one character a byte;
every other file is UTF-8.
-/

namespace StumpCompiler.Encoding

open Text (cutBefore)

/-- The names under which ISO-8859-1 goes, in lower case. -/
def latin1Labels : List String :=
  ["iso-8859-1", "iso8859-1", "iso_8859-1", "latin1", "latin-1", "l1"]

/-- The bytes of an ASCII text. -/
def ascii (s : String) : List UInt8 :=
  s.toList.map fun c => c.toNat.toUInt8

def byteOrderMark : List UInt8 := [0xEF, 0xBB, 0xBF]

/-- White space anywhere in Unicode. -/
def isBlank (c : Char) : Bool :=
  let n := c.toNat
  (9 ≤ n && n ≤ 13) || n = 0x20 || n = 0x85 || n = 0xA0 || n = 0x1680 ||
    (0x2000 ≤ n && n ≤ 0x200A) || n = 0x2028 || n = 0x2029 || n = 0x202F || n = 0x205F ||
    n = 0x3000

/-- The text behind the first place where `word` stands. -/
def behind? (word : String) (cs : List Char) : Option (List Char) :=
  match (cutBefore (word.toList.isPrefixOf ·) cs).2 with
  | [] => none
  | rest => some (rest.drop word.length)

/-- The text between the quotes that follow a first `=`, with blanks around it. -/
def quotedValue? (cs : List Char) : Option String :=
  match cs.dropWhile isBlank with
  | '=' :: rest =>
    match rest.dropWhile isBlank with
    | q :: rest =>
      if q = '"' || q = '\'' then
        let (value, more) := rest.span (· ≠ q)
        if more.isEmpty then none else some (String.ofList value)
      else none
    | [] => none
  | _ => none

/-- The encoding that the XML declaration at the start of a file names. -/
def declared? (bytes : List UInt8) : Option String :=
  let bytes := if byteOrderMark.isPrefixOf bytes then bytes.drop 3 else bytes
  if (ascii "<?xml").isPrefixOf bytes then
    match cutBefore ((ascii "?>").isPrefixOf ·) bytes with
    | (_, []) => none
    | (declaration, _) =>
      match Text.Utf8.decode declaration with
      | .error _ => none
      | .ok text => (behind? "encoding" text).bind quotedValue?
  else none

/-- The declared label, if it is one of ISO-8859-1. -/
def latin1Label? (bytes : List UInt8) : Option String :=
  (declared? bytes).filter fun label =>
    latin1Labels.contains (String.ofList (label.toList.map Char.toLower))

def decodeLatin1 (bytes : List UInt8) : List Char :=
  bytes.map fun b => Char.ofNat b.toNat

/-- The text of a model file. -/
def decode (bytes : List UInt8) : Except IoFault (List Char) :=
  if (latin1Label? bytes).isSome then .ok (decodeLatin1 bytes)
  else (Text.Utf8.decode bytes).mapError .notUtf8

end StumpCompiler.Encoding
