import StumpCompiler.Cpp.Listing
import StumpCompiler.Settings.Basic

/-!
The header: a guarded declaration of `classify`. It depends on the settings alone.
-/

namespace StumpCompiler.Cpp

def headerLines (s : Settings) : List String := [
  "#ifndef " ++ s.includeGuard,
  "#define " ++ s.includeGuard ++ " 1",
  "#include \"" ++ s.featuresHeader ++ "\"",
  "int classify(objs_t &, size_t);",
  "#endif //" ++ s.includeGuard]

def header (s : Settings) : String :=
  (Listing.empty.lines (headerLines s)).text

end StumpCompiler.Cpp
