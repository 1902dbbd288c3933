import StumpCompiler.CommandLine

/-!
The program itself: its surroundings are the file system, the environment and the standard streams.
-/

namespace StumpCompiler

/-- The number by which the system tells a failure, and its words. -/
def systemFault : IO.Error → Option (UInt32 × String)
  | .alreadyExists _ code details | .otherError code details | .resourceBusy code details
  | .resourceVanished code details | .unsupportedOperation code details
  | .hardwareFault code details | .unsatisfiedConstraints code details
  | .illegalOperation code details | .protocolError code details | .timeExpired code details
  | .interrupted _ code details | .noFileOrDirectory _ code details
  | .invalidArgument _ code details | .permissionDenied _ code details
  | .resourceExhausted _ code details | .inappropriateType _ code details
  | .noSuchThing _ code details => some (code, details)
  | .unexpectedEof | .userError _ => none

/-- Some failures come with their number negated. -/
def positive (code : UInt32) : UInt32 :=
  if code < 0x80000000 then code else -code

def ioFault (e : IO.Error) : IoFault :=
  match systemFault e with
  | none => .other (toString e)
  | some (code, details) =>
    match positive code with
    | 2 => .notFound
    | 13 => .other "Permission denied (os error 13)"
    | 17 => .alreadyExists
    | 20 => .notDirectory
    | 21 => .isDirectory
    | 28 => .noSpace
    | 36 => .nameTooLong
    | number => .other (details ++ " (os error " ++ toString number ++ ")")

/-- Does something with a path, unless it is one that the system cannot be asked about. -/
def withPath {α : Type} (path : String) (act : IO α) : IO (Except IoFault α) := do
  if path.toList.contains '\x00' then return .error .nulInName
  try return .ok (← act)
  catch e => return .error (ioFault e)

def succeeds {α : Type} (path : String) (act : IO α) : IO Bool := do
  match ← withPath path act with
  | .ok _ => return true
  | .error _ => return false

/-- The records that a threshold shows go to the standard error stream. -/
instance : Host (ReaderT Threshold IO) where
  read path _ := withPath path do return (← IO.FS.readBinFile path).toList
  write path bytes _ := withPath path do
    let file ← IO.FS.Handle.mk path .write
    file.write ⟨bytes.toArray⟩
    file.flush
  makeDirectory path _ := withPath path (IO.FS.createDir path)
  has path _ := succeeds path (IO.FS.realPath path)
  hasDirectory path _ := succeeds path (IO.FS.realPath (path ++ "/"))
  note r threshold := do
    if threshold.shows r then IO.eprint r.line

/-- The variables that the program looks at. -/
def variableNames : List String :=
  CommandLine.thresholdVariable :: Settings.fileVariable ::
    Settings.fieldVariables.map Prod.snd

end StumpCompiler

open StumpCompiler in
def main (arguments : List String) : IO UInt32 := do
  let values ← variableNames.filterMapM fun name => do
    return (← IO.getEnv name).map (name, ·)
  let lookup : Settings.Lookup := fun name => values.lookup name
  let outcome ← ((CommandLine.run lookup arguments : ReaderT Threshold IO _)
    (CommandLine.threshold lookup) : IO CommandLine.Outcome)
  IO.print outcome.output
  IO.eprint outcome.errors
  return outcome.code.toUInt32
