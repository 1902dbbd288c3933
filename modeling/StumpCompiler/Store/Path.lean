/-!
Paths as texts: joining, the parts between slashes, and file name extensions.
-/

namespace StumpCompiler.Path

/-- Cuts at every `separator`. -/
def splitOn (separator : Char) : List Char → List (List Char)
  | [] => [[]]
  | c :: cs =>
    if c = separator then [] :: splitOn separator cs
    else match splitOn separator cs with
      | [] => [[c]]
      | word :: words => (c :: word) :: words

def isAbsolute (path : String) : Bool :=
  path.toList.head? = some '/'

def endsInSlash (path : String) : Bool :=
  path.toList.getLast? = some '/'

/-- A name inside a directory. An absolute name stands for itself; the empty directory adds
nothing. -/
def join (directory name : String) : String :=
  if isAbsolute name || directory = "" then name
  else if endsInSlash directory then directory ++ name
  else directory ++ "/" ++ name

/-- What stands between the slashes; nothing stands between two of them in a row. -/
def parts (path : String) : List String :=
  ((splitOn '/' path.toList).filter (· ≠ [])).map String.ofList

/-- The parts that name something: a dot does so only at the start of a relative path. -/
def namingParts (path : String) : List String :=
  match parts path with
  | [] => []
  | first :: rest =>
    (if first = "." && isAbsolute path then [] else [first]) ++ rest.filter (· ≠ ".")

/-- The path with the given parts. -/
def ofParts (absolute : Bool) (ps : List String) : String :=
  (if absolute then "/" else "") ++ "/".intercalate ps

/-- The name at the end of a path. -/
def fileName? (path : String) : Option String :=
  (namingParts path).getLast?.filter fun name => name ≠ "." && name ≠ ".."

/-- What follows the last dot of the file name; a dot at the start of the name does not count. -/
def extension? (path : String) : Option String :=
  (fileName? path).bind fun name =>
    let (ending, stem) := name.toList.reverse.span (· ≠ '.')
    if stem.length ≤ 1 then none else some (String.ofList ending.reverse)

end StumpCompiler.Path
