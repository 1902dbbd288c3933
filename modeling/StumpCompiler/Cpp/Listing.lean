/-!
Program text, line by line.
-/

namespace StumpCompiler.Cpp

/-- A text that grows by whole lines, and how many lines it was given. -/
structure Listing where
  text : String
  count : Nat
  deriving DecidableEq

namespace Listing

def empty : Listing := ⟨"", 0⟩

/-- One more line. -/
def line (l : Listing) (s : String) : Listing :=
  ⟨l.text ++ s ++ "\n", l.count + 1⟩

/-- One more line, put together from pieces. -/
def pieces (l : Listing) (ss : List String) : Listing :=
  ⟨ss.foldl (· ++ ·) l.text ++ "\n", l.count + 1⟩

def blank (l : Listing) : Listing := l.line ""

def lines (l : Listing) (ss : List String) : Listing :=
  ss.foldl line l

end Listing

end StumpCompiler.Cpp
