import StumpCompiler.Fault
import StumpCompiler.Journal
import StumpCompiler.Store.Path

/-!
What the program needs of its surroundings: files, directories, and a journal that takes its
records.
-/

namespace StumpCompiler

class Host (m : Type → Type) where
  /-- The content of a file. -/
  read : String → m (Except IoFault (List UInt8))
  /-- Writes a file anew. -/
  write : String → List UInt8 → m (Except IoFault Unit)
  /-- Makes one directory in a directory that exists. -/
  makeDirectory : String → m (Except IoFault Unit)
  has : String → m Bool
  hasDirectory : String → m Bool
  note : Record → m Unit

namespace Host

variable {m : Type → Type} [Monad m] [Host m]

/-- It is no fault if a directory cannot be made because it is there. -/
def settle (path : String) : Except IoFault Unit → m (Except IoFault Unit)
  | .ok () => return .ok ()
  | .error fault => do
    if ← hasDirectory path then return .ok () else return .error fault

/-- Makes a directory; if it has no directory to stand in, `above` makes that first. -/
def makeWith (above : m (Except IoFault Unit)) (path : String) : m (Except IoFault Unit) := do
  match ← makeDirectory path with
  | .error .notFound =>
    match ← above with
    | .error fault => return .error fault
    | .ok () => settle path (← makeDirectory path)
  | result => settle path result

/-- Makes the directory whose path has the given parts, the last one first, and those above it. -/
def makeNamed (absolute : Bool) : List String → m (Except IoFault Unit)
  | [] => return .ok ()
  | part :: above =>
    makeWith (makeNamed absolute above) (Path.ofParts absolute (part :: above).reverse)

/-- Makes a directory and those above it, where they are missing. -/
def makeDirectories (path : String) : m (Except IoFault Unit) :=
  makeWith (makeNamed (Path.isAbsolute path) (Path.namingParts path).reverse.tail) path

def noteAll (records : List Record) : m Unit :=
  records.forM note

end Host

end StumpCompiler
