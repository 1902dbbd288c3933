import StumpCompiler.Association
import StumpCompiler.Fault

/-!
A store of files and directories. An entry has its place, the names on the way from the root to it;
the root itself is always a directory.
-/

namespace StumpCompiler

/-- The names on the way from the root. -/
abbrev Place := List String

inductive Entry where
  | file (bytes : List UInt8)
  | directory
  /-- Takes everything that is written to it and keeps nothing. -/
  | nullDevice
  /-- Refuses everything that is written to it. -/
  | fullDevice
  deriving DecidableEq

structure Store where
  entries : List (Place × Entry)
  /-- Where relative paths start. -/
  workingDirectory : Place
  deriving DecidableEq

namespace Store

/-- An empty working directory, and two devices. -/
def initial : Store where
  entries := [(["dev"], .directory), (["dev", "null"], .nullDevice), (["dev", "full"], .fullDevice),
    (["work"], .directory)]
  workingDirectory := ["work"]

def find? (s : Store) (p : Place) : Option Entry :=
  if p = [] then some .directory else s.entries.lookup p

def put (s : Store) (p : Place) (e : Entry) : Store :=
  { s with entries := Association.put p e s.entries }

/-- Without the entry at `p` and everything below it. -/
def dropAll (s : Store) (p : Place) : Store :=
  { s with entries := s.entries.filter fun e => !p.isPrefixOf e.1 }

/-- The entries below `p`, by their places as seen from there. -/
def below (s : Store) (p : Place) : List (Place × Entry) :=
  s.entries.filterMap fun (q, e) =>
    if p.isPrefixOf q && p.length < q.length then some (q.drop p.length, e) else none

theorem find?_put (s : Store) (p q : Place) (e : Entry) (h : p ≠ []) :
    (s.put p e).find? q = if q = p then some e else s.find? q := by
  by_cases hq : q = []
  · subst hq
    simp [find?, Ne.symm h]
  · simp [find?, put, hq, Association.lookup_put]

theorem put_eq_self {s : Store} {p : Place} {e : Entry} (h : p ≠ [])
    (present : s.find? p = some e) : s.put p e = s := by
  rw [find?, if_neg h] at present
  rw [put, Association.put_eq_self present]

end Store

end StumpCompiler
