import StumpCompiler.Json.Parse
import StumpCompiler.Settings.Basic

/-!
Settings as JSON: an object with the fields by name, or an array of their values in order.
-/

namespace StumpCompiler.Settings

/-- The settings that members of an object give; `given` are those of the members in front. Other
names are passed over, but no field is given twice. -/
def membersJson? (given : List (Field × String)) :
    List (Option String × Json.Value) → Option (List (Field × String))
  | [] => some given
  | (none, _) :: _ => none
  | (some key, value) :: rest =>
    match Field.ofKey? key with
    | none => membersJson? given rest
    | some f =>
      if given.any (·.1 = f) then none
      else match value with
        | .string (some text) => membersJson? (given ++ [(f, text)]) rest
        | _ => none

/-- The settings that the items of an array give to the fields in their order. -/
def itemsJson? : List Field → List Json.Value → Option (List (Field × String))
  | _, [] => some []
  | f :: fs, .string (some text) :: rest => (itemsJson? fs rest).map ((f, text) :: ·)
  | _, _ => none

/-- The fields that a JSON value gives. -/
def givenJson? : Json.Value → Option (List (Field × String))
  | .object members => membersJson? [] members
  | .array items => itemsJson? Field.all items
  | _ => none

/-- The fields that a JSON text gives. -/
def parseJson? (text : List Char) : Option (List (Field × String)) :=
  match Json.parse text with
  | .error _ => none
  | .ok v => givenJson? v

/-- One line of the object. -/
def memberJson (s : Settings) (f : Field) : String :=
  "  " ++ Json.quote f.key ++ ": " ++ Json.quote (s.get f)

/-- The settings as an object, with a line for every field. -/
def toJson (s : Settings) : String :=
  "\x7b\n" ++ ",\n".intercalate (Field.all.map s.memberJson) ++ "\n\x7d"

end StumpCompiler.Settings
