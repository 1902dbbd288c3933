import StumpCompiler.Store.Basic
import StumpCompiler.Store.Path

/-!
Where a path leads. A path is followed name by name: what stands in front of its last name must be
directories that exist; a single dot stays where it is, and two dots go up.
-/

namespace StumpCompiler.Store

/-- The most bytes that a name may have. -/
def maxNameSize : Nat := 255

/-- The most bytes that a path may have. -/
def maxPathSize : Nat := 4095

/-- What a directory has under a name. -/
def child (s : Store) (here : Place) (name : String) : Except IoFault Entry :=
  if maxNameSize < name.utf8ByteSize then .error .nameTooLong
  else match s.find? (here ++ [name]) with
    | none => .error .notFound
    | some e => .ok e

/-- The directory to which names lead from `here`. -/
def walk (s : Store) (here : Place) : List String → Except IoFault Place
  | [] => .ok here
  | name :: rest =>
    if name = "." then s.walk here rest
    else if name = ".." then s.walk here.dropLast rest
    else match s.child here name with
      | .error fault => .error fault
      | .ok .directory => s.walk (here ++ [name]) rest
      | .ok _ => .error .notDirectory

/-- What a path means, as far as its directories tell. -/
inductive Target where
  /-- A directory that the path reaches by a dot, by two, or by its first slash. -/
  | directory (place : Place)
  /-- A name in a directory, which may be there or not. With a slash behind it the name can be that
  of a directory only. -/
  | name (parent : Place) (name : String) (slash : Bool)
  deriving DecidableEq

/-- Where a path starts. -/
def base (s : Store) (path : String) : Place :=
  if Path.isAbsolute path then [] else s.workingDirectory

def target (s : Store) (path : String) : Except IoFault Target :=
  if path.toList.contains '\x00' then .error .nulInName
  else if path = "" then .error .notFound
  else if maxPathSize < path.utf8ByteSize then .error .nameTooLong
  else match (Path.parts path).getLast? with
    | none => .ok (.directory (s.base path))
    | some last => do
      let here ← s.walk (s.base path) (Path.parts path).dropLast
      if last = "." then return .directory here
      else if last = ".." then return .directory here.dropLast
      else return .name here last (Path.endsInSlash path)

/-- The entry to which a path leads, and its place. -/
def resolve (s : Store) (path : String) : Except IoFault (Place × Entry) := do
  match ← s.target path with
  | .directory place => return (place, .directory)
  | .name parent name slash =>
    let e ← s.child parent name
    if slash && e ≠ .directory then .error .notDirectory
    else return (parent ++ [name], e)

end StumpCompiler.Store
