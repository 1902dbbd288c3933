import StumpCompiler.Host
import StumpCompiler.Settings.Json
import StumpCompiler.Settings.Toml

/-!
Settings in files. The ending of a file's name tells its format. A file may leave fields out; these
have their default values.
-/

namespace StumpCompiler.Settings

inductive Format where
  | json
  | toml
  deriving DecidableEq

namespace Format

def ofPath? (path : String) : Option Format :=
  match Path.extension? path with
  | some "json" => some json
  | some "toml" => some toml
  | _ => none

/-- The fields that a text gives. -/
def parse (f : Format) (text : List Char) : Except SettingsFault (List (Field × String)) :=
  match f with
  | json => (parseJson? text).elim (.error .notJson) .ok
  | toml => (parseToml? text).elim (.error .notToml) .ok

def print (f : Format) (s : Settings) : String :=
  match f with
  | json => s.toJson
  | toml => s.toToml

end Format

/-- The fields that the file at `path` gives, if it has the given content. -/
def givenIn (path : String) (content : Except IoFault (List UInt8)) :
    Except SettingsFault (List (Field × String)) :=
  match content with
  | .error fault => .error (.unreadable fault)
  | .ok bytes =>
    match Text.Utf8.decode bytes with
    | .error _ => .error (.unreadable .notText)
    | .ok text =>
      match Format.ofPath? path with
      | none => .error .unknownFormat
      | some f => f.parse text

/-- The settings of the file at `path`, if it has the given content. -/
def ofContent (path : String) (content : Except IoFault (List UInt8)) : Except Fault Settings :=
  match givenIn path content with
  | .error fault => .error (.settings fault)
  | .ok given => (default.setAll given).validate

variable {m : Type → Type} [Monad m] [Host m]

def load (path : String) : ExceptT Fault m Settings :=
  ExceptT.mk do return ofContent path (← Host.read path)

/-- Saves settings, whether they are accepted or not. -/
def save (s : Settings) (path : String) : ExceptT Fault m Unit :=
  match Format.ofPath? path with
  | none => throw (.settings .unknownFormat)
  | some f => ExceptT.mk do
    return (← Host.write path (Text.Utf8.encode (f.print s).toList)).mapError fun fault =>
      .settings (.unwritable fault)

end StumpCompiler.Settings
