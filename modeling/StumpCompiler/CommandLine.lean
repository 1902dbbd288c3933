import StumpCompiler.Generation
import StumpCompiler.Settings.Layers

/-!
The command line: one model, and two options that ask for help or for the version.
-/

namespace StumpCompiler.CommandLine

def programName : String := "stumpgen"

def version : String := "0.1.0"

/-- What the arguments ask for. -/
inductive Command where
  | help
  | version
  | generate (modelPath : String)
  deriving DecidableEq

/-- Why arguments are refused. -/
inductive UsageFault where
  | missingModel
  | emptyModel
  | unexpectedArgument (argument : String)
  | unknownOption (option : String)
  deriving DecidableEq

def usageLine : String := "Usage: " ++ programName ++ " <MODEL>\n"

/-- The words for a refusal; of the arguments in them, what is printable is left. -/
def UsageFault.message : UsageFault → String
  | missingModel =>
    "error: the following required arguments were not provided:\n  <MODEL>\n\n" ++ usageLine ++ hint
  | emptyModel => "error: a value is required for '<MODEL>' but none was supplied\n" ++ hint
  | unexpectedArgument argument =>
    "error: unexpected argument '" ++ Text.printable argument ++ "' found\n\n" ++ usageLine ++ hint
  | unknownOption option =>
    let shown := Text.printable option
    "error: unexpected argument '" ++ shown ++ "' found\n\n  tip: to pass '" ++ shown ++
      "' as a value, use '-- " ++ shown ++ "'\n\n" ++ usageLine ++ hint
where
  hint : String := "\nFor more information, try '--help'.\n"

def helpText : String :=
  "Generate a C++ classifier from a boosted decision-stump model\n\n" ++ usageLine ++
    "\nArguments:\n  <MODEL>  XML model document\n\nOptions:\n" ++
    "  -h, --help     Print help\n  -V, --version  Print version\n"

def versionText : String := programName ++ " " ++ version ++ "\n"

/-- An argument, as far as its form tells. -/
inductive Word where
  /-- Behind it, no argument is an option. -/
  | endOfOptions
  | help
  | version
  /-- An option that there is not. -/
  | unknown (option : String)
  | value (text : String)
  deriving DecidableEq

/-- Several options of one letter may share a dash. The first of them counts: it is either unknown
or ends the work. -/
def Word.ofArgument (argument : String) : Word :=
  match argument.toList with
  | ['-', '-'] => .endOfOptions
  | '-' :: '-' :: name =>
    match String.ofList (name.takeWhile (· ≠ '=')) with
    | "help" => .help
    | "version" => .version
    | option => .unknown ("--" ++ option)
  | '-' :: letter :: _ =>
    if letter = 'h' then .help
    else if letter = 'V' then .version
    else .unknown ("-" ++ String.singleton letter)
  | _ => .value argument

/-- The model must have a path. -/
def checkModel (model : Option String) : Except UsageFault Unit :=
  if model = some "" then .error .emptyModel else .ok ()

/-- Reads arguments behind a model path that may be given already. -/
def parseFrom (model : Option String) (options : Bool) : List String → Except UsageFault Command
  | [] => do
    checkModel model
    model.elim (.error .missingModel) fun path => .ok (.generate path)
  | argument :: rest =>
    match if options then Word.ofArgument argument else .value argument with
    | .endOfOptions => parseFrom model false rest
    | .help => do
      checkModel model
      return .help
    | .version => do
      checkModel model
      return .version
    | .unknown option => .error (.unknownOption option)
    | .value text =>
      if model.isNone then parseFrom (some text) options rest
      else .error (.unexpectedArgument text)

def parse (arguments : List String) : Except UsageFault Command :=
  parseFrom none true arguments

/-- What a run of the program leaves behind, its files and its journal apart. -/
structure Outcome where
  code : Nat
  output : String
  errors : String
  deriving DecidableEq

/-- The variable that names the threshold of the journal. -/
def thresholdVariable : String := "RUST_LOG"

def threshold (lookup : Settings.Lookup) : Threshold :=
  ((lookup thresholdVariable).bind Threshold.ofName?).getD (some .warn)

variable {m : Type → Type} [Monad m] [Host m]

def note (severity : Severity) (message : String) : m Unit :=
  Host.note ⟨severity, programName, message⟩

/-- A fault, and what the program was doing. -/
structure Failure where
  context : String
  fault : Fault

def Failure.text (f : Failure) : String :=
  "error: " ++ f.context ++ ": " ++ f.fault.chain ++ "\n"

/-- Generates the classifier of a model with the settings of the environment. -/
def generate (lookup : Settings.Lookup) (path : String) : ExceptT Failure m Unit := do
  let (s, origin) ← (Settings.ofEnvironment lookup : ExceptT Fault m _).adapt
    (⟨"loading configuration", ·⟩)
  (note .debug ("configuration from " ++ origin.text ++ ": " ++ s.text) : m Unit)
  let report ← (Generation.run s path : ExceptT Fault m Report).adapt
    (⟨"generating classifier from " ++ path, ·⟩)
  (note .info ("wrote " ++ report.headerPath ++ " and " ++ report.sourcePath ++ " (" ++
    toString report.voteStatementCount ++ " vote statements)") : m Unit)

/-- Runs the program. -/
def run (lookup : Settings.Lookup) (arguments : List String) : m Outcome := do
  Host.note ⟨.debug, "stumpgen::core", programName ++ " " ++ version ++ " initialized"⟩
  match parse arguments with
  | .error fault => return ⟨2, "", fault.message⟩
  | .ok .help => return ⟨0, helpText, ""⟩
  | .ok .version => return ⟨0, versionText, ""⟩
  | .ok (.generate path) =>
    match ← (generate lookup path).run with
    | .ok () => return ⟨0, "", ""⟩
    | .error failure =>
      note .debug ("failure category: " ++ failure.fault.category)
      return ⟨1, "", failure.text⟩

end StumpCompiler.CommandLine
