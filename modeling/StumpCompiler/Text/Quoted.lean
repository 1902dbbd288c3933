import StumpCompiler.Text.Shown

/-!
Quoted text as the journal shows it: between quotes, with quotes, backslashes and everything that
cannot be shown written as an escape.
-/

namespace StumpCompiler.Text.Quoted

/-- Lower-case hexadecimal digits, at least one. -/
def hex (n : Nat) : String :=
  String.ofList (Nat.toDigits 16 n)

/-- An escape, or the character itself where it can be shown. -/
def escape (c : Char) : String :=
  if c = '\x00' then "\\0"
  else if c = '\t' then "\\t"
  else if c = '\r' then "\\r"
  else if c = '\n' then "\\n"
  else if c = '\\' then "\\\\"
  else if isShown c then String.singleton c
  else "\\u\x7b" ++ hex c.toNat ++ "\x7d"

/-- One character between single quotes. -/
def char (c : Char) : String :=
  "'" ++ (if c = '\'' then "\\'" else escape c) ++ "'"

/-- A text between double quotes. -/
def text (s : String) : String :=
  "\"" ++ String.join (s.toList.map fun c => if c = '"' then "\\\"" else escape c) ++ "\""

/-- Quoted texts between square brackets. -/
def list (ss : List String) : String :=
  "[" ++ ", ".intercalate (ss.map text) ++ "]"

end StumpCompiler.Text.Quoted
