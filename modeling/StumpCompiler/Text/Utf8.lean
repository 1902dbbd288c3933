/-!
UTF-8: the bytes of a text, and the text of bytes with the exact place of the first fault.
-/

namespace StumpCompiler.Text.Utf8

/-- Why bytes are not UTF-8. `start` counts the bytes in front of the faulty sequence. -/
inductive Fault where
  /-- The `length` bytes at `start` begin a character that the next byte does not continue. -/
  | invalid (length start : Nat)
  /-- The input ends inside a character. -/
  | incomplete (start : Nat)
  deriving DecidableEq

def Fault.message : Fault → String
  | .invalid length start =>
    "invalid utf-8 sequence of " ++ toString length ++ " bytes from index " ++ toString start
  | .incomplete start => "incomplete utf-8 byte sequence from index " ++ toString start

def encodeChar (c : Char) : List UInt8 :=
  let n := c.toNat
  if n < 0x80 then [n.toUInt8]
  else if n < 0x800 then [(0xC0 + n / 64).toUInt8, (0x80 + n % 64).toUInt8]
  else if n < 0x10000 then
    [(0xE0 + n / 4096).toUInt8, (0x80 + n / 64 % 64).toUInt8, (0x80 + n % 64).toUInt8]
  else
    [(0xF0 + n / 262144).toUInt8, (0x80 + n / 4096 % 64).toUInt8, (0x80 + n / 64 % 64).toUInt8,
      (0x80 + n % 64).toUInt8]

def encode (cs : List Char) : List UInt8 :=
  cs.flatMap encodeChar

/-- What a first byte promises: how many bytes follow it, and the range of the second. -/
structure Lead where
  following : Nat
  least : UInt8
  greatest : UInt8

/-- The first bytes of characters of two to four bytes. The narrow ranges shut out overlong forms,
surrogates and code points above U+10FFFF. -/
def lead? (b : UInt8) : Option Lead :=
  if 0xC2 ≤ b && b ≤ 0xDF then some ⟨1, 0x80, 0xBF⟩
  else if b == 0xE0 then some ⟨2, 0xA0, 0xBF⟩
  else if b == 0xED then some ⟨2, 0x80, 0x9F⟩
  else if 0xE1 ≤ b && b ≤ 0xEF then some ⟨2, 0x80, 0xBF⟩
  else if b == 0xF0 then some ⟨3, 0x90, 0xBF⟩
  else if b == 0xF4 then some ⟨3, 0x80, 0x8F⟩
  else if 0xF1 ≤ b && b ≤ 0xF3 then some ⟨3, 0x80, 0xBF⟩
  else none

/-- A byte that continues a character. -/
def isTail (b : UInt8) : Bool :=
  0x80 ≤ b && b ≤ 0xBF

def joined2 (a b : UInt8) : Char :=
  Char.ofNat ((a.toNat - 0xC0) * 64 + (b.toNat - 0x80))

def joined3 (a b c : UInt8) : Char :=
  Char.ofNat ((a.toNat - 0xE0) * 4096 + (b.toNat - 0x80) * 64 + (c.toNat - 0x80))

def joined4 (a b c d : UInt8) : Char :=
  Char.ofNat ((a.toNat - 0xF0) * 262144 + (b.toNat - 0x80) * 4096 + (c.toNat - 0x80) * 64 +
    (d.toNat - 0x80))

/-- Decodes from the byte with number `i`, behind the characters `read` (the last one first). -/
def decodeFrom (i : Nat) (read : List Char) : List UInt8 → Except Fault (List Char)
  | [] => .ok read.reverse
  | a :: rest =>
    if a < 0x80 then decodeFrom (i + 1) (Char.ofNat a.toNat :: read) rest
    else match lead? a with
      | none => .error (.invalid 1 i)
      | some lead =>
        match rest with
        | [] => .error (.incomplete i)
        | b :: rest =>
          if b < lead.least || lead.greatest < b then .error (.invalid 1 i)
          else if lead.following == 1 then decodeFrom (i + 2) (joined2 a b :: read) rest
          else match rest with
            | [] => .error (.incomplete i)
            | c :: rest =>
              if !isTail c then .error (.invalid 2 i)
              else if lead.following == 2 then decodeFrom (i + 3) (joined3 a b c :: read) rest
              else match rest with
                | [] => .error (.incomplete i)
                | d :: rest =>
                  if !isTail d then .error (.invalid 3 i)
                  else decodeFrom (i + 4) (joined4 a b c d :: read) rest

/-- The text that bytes encode. -/
def decode (bytes : List UInt8) : Except Fault (List Char) :=
  decodeFrom 0 [] bytes

end StumpCompiler.Text.Utf8
