import StumpCompiler.Feature
import StumpCompiler.Json.Parse

/-!
Features in JSON: the column name as a string.
-/

namespace StumpCompiler.Feature

/-- The feature with a column name. -/
def ofName? (name : String) : Option Feature :=
  all.find? fun f => f.columnName == name

def toJson (f : Feature) : String :=
  Json.quote f.columnName

/-- A name, or an object with the name as its only member, whose value is null. -/
def ofJson? : Json.Value → Option Feature
  | .string (some name) => ofName? name
  | .object [(some name, .null)] => ofName? name
  | _ => none

end StumpCompiler.Feature
