import StumpCompiler.Fault
import StumpCompiler.Store.Path

/-!
The settings of a run, and which of them are accepted.
-/

namespace StumpCompiler

structure Settings where
  /-- The directory of both artifacts. -/
  outputDir : String
  headerFile : String
  sourceFile : String
  /-- The macro that guards the header. -/
  includeGuard : String
  /-- The header that declares the feature descriptors. -/
  featuresHeader : String
  deriving DecidableEq

namespace Settings

def default : Settings where
  outputDir := "."
  headerFile := "classifier.h"
  sourceFile := "classifier.cc"
  includeGuard := "CLASSIFIER_INCLUDED"
  featuresHeader := "features.h"

inductive Field where
  | outputDir
  | headerFile
  | sourceFile
  | includeGuard
  | featuresHeader
  deriving DecidableEq

namespace Field

/-- In the order of a settings file. -/
def all : List Field := [outputDir, headerFile, sourceFile, includeGuard, featuresHeader]

/-- The name of a field in settings files and in messages. -/
def key : Field → String
  | outputDir => "output_dir"
  | headerFile => "header_file"
  | sourceFile => "source_file"
  | includeGuard => "include_guard"
  | featuresHeader => "features_header"

def ofKey? (key : String) : Option Field :=
  all.find? fun f => f.key == key

end Field

def get (s : Settings) : Field → String
  | .outputDir => s.outputDir
  | .headerFile => s.headerFile
  | .sourceFile => s.sourceFile
  | .includeGuard => s.includeGuard
  | .featuresHeader => s.featuresHeader

def set (s : Settings) (f : Field) (value : String) : Settings :=
  match f with
  | .outputDir => { s with outputDir := value }
  | .headerFile => { s with headerFile := value }
  | .sourceFile => { s with sourceFile := value }
  | .includeGuard => { s with includeGuard := value }
  | .featuresHeader => { s with featuresHeader := value }

/-- Sets fields one after the other. -/
def setAll (s : Settings) (changes : List (Field × String)) : Settings :=
  changes.foldl (fun s (f, value) => s.set f value) s

def headerPath (s : Settings) : String := Path.join s.outputDir s.headerFile

def sourcePath (s : Settings) : String := Path.join s.outputDir s.sourceFile

/-- Why settings are refused. -/
inductive Violation where
  | emptyName (field : Field)
  /-- A file name has a slash or a backslash. -/
  | pathName (field : Field) (value : String)
  /-- Both artifacts have one name. -/
  | sameName (value : String)
  | badGuard (value : String)
  deriving DecidableEq

def Violation.fault : Violation → Fault
  | emptyName field => .invalidParameter field.key "" "must not be empty"
  | pathName field value => .invalidParameter field.key value "must be a file name, not a path"
  | sameName value =>
    .invalidParameter (Field.key .sourceFile) value "must differ from header_file"
  | badGuard value => .invalidParameter (Field.key .includeGuard) value "must be a C identifier"

def checkName (s : Settings) (f : Field) : Except Violation Unit :=
  let value := s.get f
  if value = "" then .error (.emptyName f)
  else if value.toList.any fun c => c = '/' || c = '\\' then .error (.pathName f value)
  else .ok ()

/-- Letters, digits and underscores, with no digit in front. -/
def isIdentifier (s : String) : Bool :=
  match s.toList with
  | [] => false
  | c :: cs => (c = '_' || c.isAlpha) && cs.all fun d => d = '_' || d.isAlphanum

/-- The first violation, in a fixed order. -/
def check (s : Settings) : Except Violation Unit := do
  s.checkName .headerFile
  s.checkName .sourceFile
  s.checkName .featuresHeader
  if s.headerFile = s.sourceFile then .error (.sameName s.sourceFile)
  else if !isIdentifier s.includeGuard then .error (.badGuard s.includeGuard)
  else .ok ()

/-- The settings themselves, if they are accepted. -/
def validate (s : Settings) : Except Fault Settings :=
  match s.check with
  | .error v => .error v.fault
  | .ok () => .ok s

end Settings

end StumpCompiler
