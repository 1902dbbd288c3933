import StumpCompiler.Settings.Basic
import StumpCompiler.Toml.Parse
import StumpCompiler.Toml.Quote

/-!
Settings as TOML: the fields by name at the top of the document.
-/

namespace StumpCompiler.Settings

/-- The fields among `fs` that a table gives. What a table has under other names does not matter. -/
def fieldsToml? (t : Toml.Table) : List Field → Option (List (Field × String))
  | [] => some []
  | f :: fs =>
    match t.find? f.key with
    | none => fieldsToml? t fs
    | some (.value (.string text)) => (fieldsToml? t fs).map ((f, text) :: ·)
    | some _ => none

/-- The fields that a TOML text gives. -/
def parseToml? (text : List Char) : Option (List (Field × String)) :=
  (Toml.parse? text).bind (fieldsToml? · Field.all)

/-- The settings as a line for every field. -/
def toToml (s : Settings) : String :=
  String.join (Field.all.map fun f => f.key ++ " = " ++ Toml.quote (s.get f) ++ "\n")

end StumpCompiler.Settings
