/-!
TOML values and tables. A table remembers how it came to be, because that decides whether it may
still grow.
-/

namespace StumpCompiler.Toml

/-- How a table came to be. -/
inductive Origin where
  /-- By a header of its own. The whole document and a table between braces count as such. -/
  | header
  /-- On the way to the table of a header. -/
  | passed
  /-- By a dotted key. -/
  | dotted
  deriving DecidableEq

mutual

inductive Value where
  | string (text : String)
  | integer (n : Int)
  /-- A number with a fraction or an exponent, or no number at all, as it is written without
  underscores. -/
  | float (literal : String)
  | boolean (b : Bool)
  /-- A date, a time of day or both, as it is written. -/
  | moment (literal : String)
  | array (items : List Value)
  | table (t : Table)

/-- What a table has under a key. -/
inductive Item where
  | value (v : Value)
  | table (t : Table)
  /-- The tables of several headers in double brackets, at least one. -/
  | tables (earlier : List Table) (last : Table)

inductive Table where
  | mk (origin : Origin) (entries : List (String × Item))

end

end StumpCompiler.Toml
