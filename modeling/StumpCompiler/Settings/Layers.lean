import StumpCompiler.Settings.Files
import StumpCompiler.Text.Quoted

/-!
The settings of a run in layers: the default values, a file over them, single fields over both. The
environment names the file and gives the single fields.
-/

namespace StumpCompiler.Settings

/-- The values of variables. -/
abbrev Lookup := String → Option String

/-- The variable that names a settings file. -/
def fileVariable : String := "STUMPGEN_CONFIG"

/-- The variables that give single fields. -/
def fieldVariables : List (Field × String) := [
  (.outputDir, "STUMPGEN_OUTPUT_DIR"),
  (.headerFile, "STUMPGEN_HEADER_FILE"),
  (.sourceFile, "STUMPGEN_SOURCE_FILE")]

/-- The fields that variables give. -/
def overrides (lookup : Lookup) : List (Field × String) :=
  fieldVariables.filterMap fun (f, name) => (lookup name).map (f, ·)

/-- Where settings come from. -/
inductive Origin where
  | default
  | environment
  /-- A file, and maybe the environment. -/
  | file (path : String)
  deriving DecidableEq

def Origin.text : Origin → String
  | default => "Default"
  | environment => "Environment"
  | file path => "File(" ++ Text.Quoted.text path ++ ")"

/-- The settings on one line. -/
def text (s : Settings) : String :=
  "GeneratorConfig \x7b " ++ ", ".intercalate (Field.all.map fun f =>
    f.key ++ ": " ++ Text.Quoted.text (s.get f)) ++ " \x7d"

/-- Puts the fields that variables give over settings, and accepts the result or not. -/
def override (lookup : Lookup) (s : Settings) : Except Fault Settings :=
  (s.setAll (overrides lookup)).validate

def source : String := "stumpgen::config"

variable {m : Type → Type} [Monad m] [Host m]

/-- The settings that variables give, and where they come from. -/
def ofEnvironment (lookup : Lookup) : ExceptT Fault m (Settings × Origin) := do
  match lookup fileVariable with
  | some path =>
    (Host.note ⟨.debug, source, "loading configuration from " ++ path⟩ : m Unit)
    let s ← (← load path).override lookup
    return (s, .file path)
  | none =>
    let s ← default.override lookup
    return (s, if (overrides lookup).isEmpty then .default else .environment)

end StumpCompiler.Settings
