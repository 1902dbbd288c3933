import StumpCompiler.Toml.Value
import StumpCompiler.Text.Grammar

/-!
Reading TOML numbers: integers of 64 bits in four bases, and floating-point numbers of 64 bits.
-/

namespace StumpCompiler.Toml

open Text (Position Cursor Scan)
open Text.Scan (refuse one word optional)

/-- Digits; underscores may stand between them, one at a time. -/
def grouped (isDigit : Char → Bool) : Scan Position (List Char) := do
  let first ← one isDigit
  let more ← Scan.loop (fun ds c =>
    match c.rest with
    | '_' :: d :: _ =>
      if isDigit d then some do
        Scan.skip 1
        return d :: ds
      else none
    | d :: _ => if isDigit d then some (return d :: ds) else none
    | [] => none) [first]
  return more.reverse

/-- Decimal digits; a zero in front stands alone. -/
def decimal : Scan Position (List Char) := do
  if ← Scan.accept "0" then return ['0'] else grouped Char.isDigit

def isSign (c : Char) : Bool := c = '+' || c = '-'

/-- An integer that 64 bits can hold. -/
def inRange (n : Int) : Scan Position Value := do
  if -(Int.pow 2 63) ≤ n && n < Int.pow 2 63 then return .integer n else refuse

/-- A natural number in another base, behind the letter that names the base. -/
def based (base : Nat) : Scan Position Value := do
  let ds ← grouped fun c => Text.isHexDigit c && Text.digitValue c < base
  inRange (Text.numberOf base ds)

/-- The positive number `m * 10 ^ e` is so large that the nearest floating-point number of 64 bits
is infinite: it is at least half a unit above the largest finite one. The number of its digits
decides this unless it is the same as that of the limit. -/
def overflows (m : Nat) (e : Int) : Bool :=
  let limit := Nat.pow 2 1024 - Nat.pow 2 970
  let digits := (Nat.toDigits 10 m).length + e
  if m = 0 || digits < 309 then false
  else if 309 < digits then true
  else if 0 ≤ e then limit ≤ m * Nat.pow 10 e.toNat
  else limit * Nat.pow 10 (-e).toNat ≤ m

/-- The exponent of ten that stands behind a number. -/
def exponent : List Char → Int
  | _ :: '-' :: ds => -(Text.numberOf 10 ds : Int)
  | _ :: '+' :: ds => Text.numberOf 10 ds
  | _ :: ds => Text.numberOf 10 ds
  | [] => 0

/-- A decimal number behind its sign. A negative one that is too large to be finite stands for minus
infinity, a positive one is refused. -/
def unsigned (sign : List Char) : Scan Position Value := do
  let whole ← decimal
  let fraction ← optional (· = '.') (grouped Char.isDigit)
  let scale ← optional (fun c => c = 'e' || c = 'E') do
    let sign ← optional isSign (return [])
    return sign ++ (← grouped Char.isDigit)
  if fraction.isEmpty && scale.isEmpty then do
    let n : Int := Text.numberOf 10 whole
    inRange (if sign = ['-'] then -n else n)
  else do
    let m := Text.numberOf 10 (whole ++ fraction.drop 1)
    let e := exponent scale - (fraction.drop 1).length
    if sign ≠ ['-'] && overflows m e then refuse
    return .float (String.ofList (sign ++ whole ++ fraction ++ scale))

def number : Scan Position Value := do
  if ← Scan.accept "0x" then based 16
  else if ← Scan.accept "0o" then based 8
  else if ← Scan.accept "0b" then based 2
  else do
    let sign ← optional isSign (return [])
    if ← Scan.accept "inf" then return .float (String.ofList sign ++ "inf")
    else if ← Scan.accept "nan" then return .float (String.ofList sign ++ "nan")
    else unsigned sign

end StumpCompiler.Toml
