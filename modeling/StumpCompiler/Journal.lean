import StumpCompiler.Text.Printable

/-!
The journal: what a run tells about itself while it works.
-/

namespace StumpCompiler

/-- How much a record matters, the least first. -/
inductive Severity where
  | trace
  | debug
  | info
  | warn
  | error
  deriving DecidableEq

namespace Severity

def rank : Severity → Nat
  | trace => 0
  | debug => 1
  | info => 2
  | warn => 3
  | error => 4

def name : Severity → String
  | trace => "TRACE"
  | debug => "DEBUG"
  | info => "INFO"
  | warn => "WARN"
  | error => "ERROR"

end Severity

structure Record where
  severity : Severity
  /-- The part of the program that speaks. -/
  source : String
  message : String
  deriving DecidableEq

namespace Record

/-- Severity and message. -/
def brief (r : Record) : String :=
  r.severity.name ++ " " ++ r.message

/-- A message with every line but the first moved in by four blanks. -/
def indented (message : String) : String :=
  String.join (message.toList.map fun c => if c = '\n' then "\n    " else String.singleton c)

/-- A line with the source, and its end; the severity is padded to five letters. Only what is
printable of it is left. -/
def line (r : Record) : String :=
  Text.printable ("[" ++ r.severity.name.pushn ' ' (5 - r.severity.name.length) ++ " " ++
    r.source ++ "] " ++ indented r.message ++ "\n")

end Record

/-- The least severity that is shown; none means that nothing is. -/
abbrev Threshold := Option Severity

/-- Thresholds by name. -/
def Threshold.ofName? : String → Option Threshold
  | "off" => some none
  | "error" => some (some .error)
  | "warn" => some (some .warn)
  | "info" => some (some .info)
  | "debug" => some (some .debug)
  | "trace" => some (some .trace)
  | _ => none

def Threshold.shows (t : Threshold) (r : Record) : Bool :=
  t.any fun least => least.rank ≤ r.severity.rank

end StumpCompiler
