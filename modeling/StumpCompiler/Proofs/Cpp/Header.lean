import StumpCompiler.Proofs.Cpp.Guard

/-! One header belongs to one guard and one name of the features header. The guard has no line end,
so the first line gives it away. Then everything in front of the included name is known, and
everything behind it, whatever the name itself holds. -/

namespace StumpCompiler.Cpp

variable {s t : Settings} {first first' : String} {rest rest' : List Char}

/-- A first line without line ends can be cut off. -/
theorem ended_append_inj (one_line : '\n' ∉ first.toList) (one_line' : '\n' ∉ first'.toList) :
    ended first ++ rest = ended first' ++ rest' ↔ first = first' ∧ rest = rest' := by
  constructor
  · intro same
    have split {line : String} (h : '\n' ∉ line.toList) (behind : List Char) :
        (ended line ++ behind).splitOn '\n' = line.toList :: behind.splitOn '\n' := by
      rw [ended, List.append_assoc, List.singleton_append, List.splitOn_append_cons_self,
        List.splitOn_eq_singleton h]
      rfl
    have pieces := congrArg (List.splitOn '\n') same
    rw [split one_line, split one_line', List.cons.injEq, String.toList_inj] at pieces
    obtain ⟨rfl, -⟩ := pieces
    exact ⟨rfl, List.append_cancel_left same⟩
  · rintro ⟨rfl, rfl⟩
    rfl

theorem ended_inj : ended first = ended first' ↔ first = first' := by
  rw [ended, ended, List.append_left_inj, String.toList_inj]

theorem including_inj {file file' : String} : including file = including file' ↔ file = file' := by
  rw [including, including, String.append_left_inj, String.append_right_inj]

/-! The lines of a header that need only the guard, behind its first line. -/

def definitionLine (guard : String) : String :=
  "#define " ++ guard ++ " 1"

def declarationLines (guard : String) : List String :=
  ["int classify(objs_t &, size_t);", "#endif //" ++ guard]

theorem toList_header_eq (s : Settings) :
    (header s).toList = ended ("#ifndef " ++ s.includeGuard) ++
      (ended (definitionLine s.includeGuard) ++ (ended (including s.featuresHeader) ++
        (declarationLines s.includeGuard).flatMap ended)) := by
  rw [toList_header, headerLines, List.flatMap_cons, List.flatMap_cons, List.flatMap_cons]
  rfl

theorem newline_not_mem_guardLine (h : Settings.isIdentifier s.includeGuard) :
    '\n' ∉ ("#ifndef " ++ s.includeGuard).toList := by
  have guard : '\n' ∉ s.includeGuard.toList := fun mem => (plain_of_isIdentifier h _ mem).1 rfl
  simp [guard]

/-- A header determines its guard and the name that it includes, and these determine the header.
Nothing is asked of the name. -/
theorem header_eq_header_iff (guard : Settings.isIdentifier s.includeGuard)
    (guard' : Settings.isIdentifier t.includeGuard) :
    header s = header t ↔
      s.includeGuard = t.includeGuard ∧ s.featuresHeader = t.featuresHeader := by
  constructor
  · intro same
    have texts : (header s).toList = (header t).toList := congrArg String.toList same
    rw [toList_header_eq, toList_header_eq, ended_append_inj (newline_not_mem_guardLine guard)
      (newline_not_mem_guardLine guard'), String.append_right_inj] at texts
    obtain ⟨guards, behind⟩ := texts
    -- With one guard, the included name stands between the same texts.
    rw [guards, List.append_right_inj, List.append_left_inj, ended_inj, including_inj] at behind
    exact ⟨guards, behind⟩
  · rintro ⟨guards, included⟩
    rw [header, header, headerLines, headerLines, guards, included]

/-- The included name goes on like a header. -/
def imitatedHeader : Settings where
  outputDir := "gen"
  headerFile := "a.h"
  sourceFile := "a.cc"
  includeGuard := "A"
  featuresHeader := "f.h\"\nint classify(objs_t &, size_t);\n#endif //A\n#include \"f.h"

/-- The name that is imitated is told apart from the imitation, and where the artifacts go does not
matter. -/
theorem header_imitated :
    Settings.isIdentifier imitatedHeader.includeGuard ∧
      header imitatedHeader ≠ header { imitatedHeader with featuresHeader := "f.h" } ∧
      header imitatedHeader =
        header { imitatedHeader with outputDir := "", headerFile := "\n", sourceFile := ".." } := by
  have guard : Settings.isIdentifier "A" := by decide +kernel
  refine ⟨guard, fun same => ?_, (header_eq_header_iff guard guard).mpr ⟨rfl, rfl⟩⟩
  exact absurd ((header_eq_header_iff guard guard).mp same).2 (by decide)

end StumpCompiler.Cpp
