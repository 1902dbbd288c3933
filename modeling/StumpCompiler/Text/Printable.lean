/-!
What is left of a text where no terminal shows it: control characters are taken out, and with them
the sequences by which a text commands a terminal. An escape character begins such a sequence; what
follows it decides where the sequence ends.
-/

namespace StumpCompiler.Text

/-- How far a sequence is read. -/
inductive Sequence where
  /-- None is open. -/
  | none
  /-- Behind the escape character. -/
  | escape
  /-- An escape character and intermediate characters. -/
  | intermediate
  /-- A control sequence, up to its final character. -/
  | control
  /-- A device control string, at its start. -/
  | device
  /-- A device control string in its parameters. -/
  | deviceParameters
  /-- A device control string in its intermediate characters. -/
  | deviceIntermediate
  /-- The body of a string, up to its terminator. -/
  | string
  /-- A command to the operating system, up to a bell. -/
  | command
  deriving DecidableEq

/-- A control character that moves on in the text. -/
def isLayout (c : Char) : Bool :=
  c = '\t' || c = '\n' || c = '\x0c' || c = '\r'

/-- No control character, or one that moves on in the text. -/
def isPrintable (c : Char) : Bool :=
  if c.toNat < 0x20 then isLayout c else c ≠ '\x7f'

/-- The byte that terminates a string is one of the bytes of the character. -/
def holdsTerminator (c : Char) : Bool :=
  let n := c.toNat
  let isTerminator (bits : Nat) := bits % 64 = 0x1C
  if n < 0x80 then false
  else if n < 0x800 then isTerminator n
  else if n < 0x10000 then isTerminator n || isTerminator (n / 64)
  else isTerminator n || isTerminator (n / 64) || isTerminator (n / 4096)

namespace Sequence

/-- What an escape character and `c` begin; other characters make a whole sequence with it. -/
def opened (c : Char) : Sequence :=
  match c with
  | '[' => control
  | ']' => command
  | 'P' => device
  | 'X' | '^' | '_' => string
  | _ => none

/-- The sequence behind `c`, and whether `c` is shown. -/
def next (s : Sequence) (c : Char) : Sequence × Bool :=
  let n := c.toNat
  if n = 0x18 || n = 0x1A then (none, false)
  else if n = 0x1B then (escape, false)
  else match s with
    | none => (none, isPrintable c)
    | escape =>
      if n < 0x20 then (escape, isLayout c)
      else if n < 0x30 then (intermediate, false)
      else if n < 0x7F then (opened c, false)
      else (escape, false)
    | intermediate =>
      if 0x30 ≤ n && n < 0x7F then (none, false) else (intermediate, isLayout c)
    | control =>
      if 0x40 ≤ n && n < 0x7F then (none, false) else (control, isLayout c)
    | device =>
      if n < 0x20 || 0x7F ≤ n then (device, false)
      else if n < 0x30 then (deviceIntermediate, false)
      else if n < 0x40 then (deviceParameters, false)
      else (string, false)
    | deviceParameters =>
      if n < 0x20 || 0x7F ≤ n then (deviceParameters, false)
      else if n < 0x30 then (deviceIntermediate, false)
      else if n < 0x3C then (deviceParameters, false)
      else (string, false)
    | deviceIntermediate =>
      if 0x30 ≤ n && n < 0x7F then (string, false) else (deviceIntermediate, false)
    | string => (if holdsTerminator c then none else string, false)
    | command => (if c = '\x07' then none else command, false)

end Sequence

/-- What is left of a text inside the sequence `s`. Once a character is shown, all that is printable
follows it; only behind a character that is not does an open sequence go on. A character beyond the
ASCII range closes it. -/
def printableFrom (s : Sequence) (flowing : Bool) : List Char → List Char
  | [] => []
  | c :: cs =>
    if flowing && isPrintable c then
      c :: printableFrom (if c.toNat < 0x80 then s else .none) true cs
    else match s.next c with
      | (s, true) => c :: printableFrom s true cs
      | (s, false) => printableFrom s false cs

/-- What is left of a text. -/
def printable (s : String) : String :=
  String.ofList (printableFrom .none false s.toList)

end StumpCompiler.Text
