/-!
Writing TOML strings. Of the four kinds of strings the plainest is taken that needs no escapes;
where each kind would need some, a string between quotes is written with them.
-/

namespace StumpCompiler.Toml

/-- A character that no string can have without an escape, whatever its kind. -/
def isControl (c : Char) : Bool :=
  (c.toNat < 0x20 && c ≠ '\t' && c ≠ '\n') || c.toNat = 0x7F

/-- The length of the longest run of `q`; `run` of them stand in front. -/
def longestRun (q : Char) (run : Nat) : List Char → Nat
  | [] => run
  | c :: cs => if c = q then longestRun q (run + 1) cs else max run (longestRun q 0 cs)

/-- Upper-case, below sixteen. -/
def upperHexDigit (n : Nat) : Char :=
  if n < 10 then Char.ofNat (48 + n) else Char.ofNat (55 + n)

/-- A character between quotes; quotes and line feeds are left as they are. -/
def escape (c : Char) : List Char :=
  if c = '\x08' then ['\\', 'b']
  else if c = '\t' then ['\\', 't']
  else if c = '\x0c' then ['\\', 'f']
  else if c = '\r' then ['\\', 'r']
  else if c = '\\' then ['\\', '\\']
  else if isControl c then
    ['\\', 'u', '0', '0', upperHexDigit (c.toNat / 16), upperHexDigit (c.toNat % 16)]
  else [c]

/-- The kinds of strings. -/
inductive Kind where
  | basic
  | literal
  | longBasic
  | longLiteral
  deriving DecidableEq

/-- The kind in which a text is written. -/
def Kind.ofText (cs : List Char) : Kind :=
  let control := cs.any isControl
  let broken := cs.contains '\n'
  let escapes := cs.contains '\\'
  let quotes := longestRun '"' 0 cs
  let apostrophes := longestRun '\'' 0 cs
  if !control && !escapes && quotes = 0 && !broken then basic
  else if !control && apostrophes = 0 && !broken then literal
  else if !control && !escapes && quotes ≤ 2 then longBasic
  else if !control && apostrophes ≤ 2 then longLiteral
  else if broken then longBasic
  else basic

def Kind.delimiter : Kind → List Char
  | basic => ['"']
  | literal => ['\'']
  | longBasic => ['"', '"', '"']
  | longLiteral => ['\'', '\'', '\'']

/-- Between three quotes, behind `run` quotes in a row: no third one follows without an escape. -/
def longBody (run : Nat) : List Char → List Char
  | [] => []
  | c :: cs =>
    if c = '"' then
      if run = 2 then '\\' :: '"' :: longBody 0 cs else '"' :: longBody (run + 1) cs
    else escape c ++ longBody 0 cs

/-- What stands between the delimiters. Where the text has several lines it starts on a line of its
own. -/
def Kind.body (k : Kind) (cs : List Char) : List Char :=
  let opening := if cs.contains '\n' then ['\n'] else []
  match k with
  | basic => cs.flatMap fun c => if c = '"' then ['\\', '"'] else escape c
  | literal => cs
  | longBasic => opening ++ longBody 0 cs
  | longLiteral => opening ++ cs

/-- A text as a TOML string. -/
def quote (s : String) : String :=
  let cs := s.toList
  let kind := Kind.ofText cs
  String.ofList (kind.delimiter ++ kind.body cs ++ kind.delimiter)

end StumpCompiler.Toml
