import StumpCompiler.Model
import StumpCompiler.Text.Utf8
import StumpCompiler.Xml.Error

/-!
Everything that can go wrong, and the words for it. Each fault ends the work it occurs in.
-/

namespace StumpCompiler

/-- Faults of files and of what is read from them or written to them. -/
inductive IoFault where
  | notFound
  | alreadyExists
  | notDirectory
  | isDirectory
  | noSpace
  | nameTooLong
  | nulInName
  /-- A sink took only a part of what it was given. -/
  | partialWrite
  /-- A text file is not UTF-8. -/
  | notText
  /-- A model is not UTF-8. -/
  | notUtf8 (cause : Text.Utf8.Fault)
  | other (message : String)
  deriving DecidableEq

def IoFault.message : IoFault → String
  | notFound => "No such file or directory (os error 2)"
  | alreadyExists => "File exists (os error 17)"
  | notDirectory => "Not a directory (os error 20)"
  | isDirectory => "Is a directory (os error 21)"
  | noSpace => "No space left on device (os error 28)"
  | nameTooLong => "File name too long (os error 36)"
  | nulInName => "file name contained an unexpected NUL byte"
  | partialWrite => "failed to write whole buffer"
  | notText => "stream did not contain valid UTF-8"
  | notUtf8 cause => cause.message
  | other message => message

/-- Faults of settings files. -/
inductive SettingsFault where
  | unreadable (cause : IoFault)
  | notJson
  | notToml
  | unknownFormat
  | unwritable (cause : IoFault)
  | other (message : String)
  deriving DecidableEq

def SettingsFault.message : SettingsFault → String
  | unreadable cause => "Failed to read config file: " ++ cause.message
  | notJson => "Failed to parse JSON config"
  | notToml => "Failed to parse TOML config"
  | unknownFormat => "Unsupported config file format. Use .json or .toml"
  | unwritable cause => "Failed to write config file: " ++ cause.message
  | other message => message

inductive Fault where
  /-- The model document is not well-formed. -/
  | malformed (cause : Xml.Error)
  /-- The document is well-formed, but no model. -/
  | shape (cause : ShapeFault)
  | undefinedFeature (hypothesis : Nat) (name : String)
  | settings (cause : SettingsFault)
  | invalidParameter (parameter value reason : String)
  | io (cause : IoFault)
  deriving DecidableEq

namespace Fault

def category : Fault → String
  | malformed _ => "parse"
  | shape _ => "structural"
  | undefinedFeature _ _ => "undefined_feature"
  | settings _ => "config"
  | invalidParameter _ _ _ => "invalid_parameter"
  | io _ => "io"

def message : Fault → String
  | malformed cause => "XML parse error: " ++ cause.message
  | shape cause => "Structural error: " ++ cause.message
  | undefinedFeature hypothesis name =>
    "Undefined feature reference in weakhyp #" ++ toString hypothesis ++ ": '" ++ name ++ "'"
  | settings cause => "Configuration error: " ++ cause.message
  | invalidParameter parameter value reason =>
    "Invalid parameter: " ++ parameter ++ " = " ++ value ++ ", " ++ reason
  | io cause => "I/O error: " ++ cause.message

/-- The fault lies in the model document, not in the settings or in the files. -/
def isModelFault : Fault → Bool
  | malformed _ | shape _ | undefinedFeature _ _ => true
  | settings _ | invalidParameter _ _ _ | io _ => false

/-- The message of a fault, and once more that of a cause from outside the program. -/
def chain : Fault → String
  | malformed cause => message (malformed cause) ++ ": " ++ cause.message
  | io cause => message (io cause) ++ ": " ++ cause.message
  | fault => fault.message

end Fault

end StumpCompiler
