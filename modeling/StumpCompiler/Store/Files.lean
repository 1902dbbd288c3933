import StumpCompiler.Store.Resolve

/-!
Reading, writing and making entries by their paths.
-/

namespace StumpCompiler.Store

/-- A path leads to an entry. -/
def has (s : Store) (path : String) : Bool :=
  match s.resolve path with
  | .ok _ => true
  | .error _ => false

/-- A path leads to a directory. -/
def hasDirectory (s : Store) (path : String) : Bool :=
  match s.resolve path with
  | .ok (_, .directory) => true
  | _ => false

/-- The content of a file. -/
def read (s : Store) (path : String) : Except IoFault (List UInt8) := do
  match ← s.resolve path with
  | (_, .file bytes) => return bytes
  | (_, .directory) => .error .isDirectory
  | (_, .nullDevice) | (_, .fullDevice) => return []

/-- Writes a file anew, whatever it held before. -/
def write (s : Store) (path : String) (bytes : List UInt8) : Except IoFault Unit × Store :=
  match s.target path with
  | .error fault => (.error fault, s)
  | .ok (.directory _) => (.error .isDirectory, s)
  | .ok (.name parent name slash) =>
    if slash then (.error .isDirectory, s)
    else match s.child parent name with
      | .error .notFound | .ok (.file _) => (.ok (), s.put (parent ++ [name]) (.file bytes))
      | .error fault => (.error fault, s)
      | .ok .directory => (.error .isDirectory, s)
      | .ok .nullDevice => (.ok (), s)
      | .ok .fullDevice => (if bytes = [] then .ok () else .error .noSpace, s)

/-- Makes one directory in a directory that exists. -/
def makeDirectory (s : Store) (path : String) : Except IoFault Unit × Store :=
  match s.target path with
  | .error fault => (.error fault, s)
  | .ok (.directory _) => (.error .alreadyExists, s)
  | .ok (.name parent name _) =>
    match s.child parent name with
    | .error .notFound => (.ok (), s.put (parent ++ [name]) .directory)
    | .error fault => (.error fault, s)
    | .ok _ => (.error .alreadyExists, s)

/-- Removes an entry, and with a directory everything in it. A directory is removed by its name
only. -/
def remove (s : Store) (path : String) : Except IoFault Unit × Store :=
  match s.target path, s.resolve path with
  | .error fault, _ | _, .error fault => (.error fault, s)
  | .ok (.directory _), _ => (.error .isDirectory, s)
  | _, .ok (place, _) => (.ok (), s.dropAll place)

end StumpCompiler.Store
