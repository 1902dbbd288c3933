import StumpCompiler.Association
import StumpCompiler.Toml.Value

/-!
What may be added to a table, and the table that the lines of a document make together. Nothing is
given twice: not a value, not a header, and a table that one way of writing has closed cannot be
opened by another.
-/

namespace StumpCompiler.Toml

namespace Table

def empty (o : Origin) : Table := ⟨o, []⟩

def origin : Table → Origin
  | ⟨o, _⟩ => o

/-- In the order in which the keys appear first. -/
def entries : Table → List (String × Item)
  | ⟨_, es⟩ => es

def setOrigin (t : Table) (o : Origin) : Table := ⟨o, t.entries⟩

def find? (t : Table) (key : String) : Option Item := t.entries.lookup key

/-- `item` under `key`, in the place of the item that was there. -/
def put (t : Table) (key : String) (item : Item) : Table :=
  ⟨t.origin, Association.put key item t.entries⟩

/-- Changes the table at the end of `path` by `f`. Tables that are missing on the way are made; of
several tables under a key the last is meant. Dotted keys do not lead into tables that have a header
of their own. -/
def within (dotted : Bool) (f : Table → Option Table) : List String → Table → Option Table
  | [], t => f t
  | key :: path, t =>
    match t.find? key with
    | none =>
      (within dotted f path (empty (if dotted then .dotted else .passed))).map fun inner =>
        t.put key (.table inner)
    | some (.table inner) =>
      if dotted && inner.origin = .header then none
      else (within dotted f path inner).map fun inner => t.put key (.table inner)
    | some (.tables earlier last) =>
      (within dotted f path last).map fun last => t.put key (.tables earlier last)
    | some (.value _) => none

/-- Gives the key at the end of a dotted path a value. Values are given once, and a path with dots
ends only in a table that such paths have made. -/
def assign (path : List String) (key : String) (v : Value) : Table → Option Table :=
  within true (fun inner =>
    if decide (inner.origin = .dotted) = path.isEmpty || (inner.find? key).isSome then none
    else some (inner.put key (.value v))) path

/-- Makes the table of a header. It may stand there already if headers have passed it. -/
def define (path : List String) (key : String) : Table → Option Table :=
  within false (fun inner =>
    match inner.find? key with
    | none => some (inner.put key (.table (empty .header)))
    | some (.table t) =>
      if t.origin = .passed then some (inner.put key (.table (t.setOrigin .header))) else none
    | some _ => none) path

/-- Makes one more table of a header in double brackets. -/
def append (path : List String) (key : String) : Table → Option Table :=
  within false (fun inner =>
    match inner.find? key with
    | none => some (inner.put key (.tables [] (empty .header)))
    | some (.tables earlier last) =>
      some (inner.put key (.tables (earlier ++ [last]) (empty .header)))
    | some _ => none) path

/-- The table of assignments, each with a path in front of its key. -/
def ofAssignments : List (List String × String × Value) → Option Table :=
  List.foldlM (fun t (path, key, v) => t.assign path key v) (empty .header)

end Table

/-- A line of a document that says something. -/
inductive Statement where
  | header (path : List String) (key : String)
  | arrayHeader (path : List String) (key : String)
  | assignment (path : List String) (key : String) (v : Value)

/-- A document while it is read: what it says so far, and the path of the last header. -/
structure Draft where
  root : Table
  current : List String

namespace Draft

def start : Draft := ⟨.empty .header, []⟩

def add (d : Draft) : Statement → Option Draft
  | .header path key => (d.root.define path key).map (⟨·, path ++ [key]⟩)
  | .arrayHeader path key => (d.root.append path key).map (⟨·, path ++ [key]⟩)
  | .assignment path key v =>
    (d.root.within false (fun t => t.assign path key v) d.current).map (⟨·, d.current⟩)

end Draft

/-- What the lines of a document say together. -/
def tableOf (lines : List Statement) : Option Table :=
  (lines.foldlM Draft.add .start).map Draft.root

end StumpCompiler.Toml
