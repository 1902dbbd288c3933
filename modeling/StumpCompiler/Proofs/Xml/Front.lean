import StumpCompiler.Proofs.Text.Scan
import StumpCompiler.Xml.Document

/-! A text in front of the root is refused where it starts. -/

namespace StumpCompiler.Xml

open Text (Scan isPrefixOf_of_ne)
open Text.Scan (Looks)

variable {c : Char} {cs : List Char}

theorem looks_spaces (ordinary : isSpace c = false) : Looks spaces (c :: cs) () :=
  (Looks.takeWhile (by simpa using ordinary)).bind (.pure () _)

theorem looks_miscellany (ordinary : isSpace c = false) (text : c ≠ '<') (read : List Node) :
    Looks (miscellany read) (c :: cs) read :=
  .loop_stop fun place => by simp [ordinary, Text.Cursor.sees, isPrefixOf_of_ne text]

theorem looks_prolog (ordinary : isSpace c = false) (text : c ≠ '<') (mark : c ≠ '\uFEFF') :
    Looks prolog (c :: cs) ([], []) := by
  have unmarked : Looks (Scan.accept "\uFEFF" : Scan Error Bool) (c :: cs) false :=
    .not_accept (isPrefixOf_of_ne mark [] cs)
  have undeclared : Looks (Scan.sees "<?xml " : Scan Error Bool) (c :: cs) false :=
    .not_sees (isPrefixOf_of_ne text _ cs)
  have untyped : Looks (Scan.sees "<!DOCTYPE" : Scan Error Bool) (c :: cs) false :=
    .not_sees (isPrefixOf_of_ne text _ cs)
  refine unmarked.bind ?_
  refine undeclared.bind ?_
  refine (looks_miscellany ordinary text []).bind ?_
  refine (looks_spaces ordinary).bind ?_
  refine untyped.bind ?_
  refine (Looks.pure ([] : Entities) _).bind ?_
  refine (looks_miscellany ordinary text []).bind ?_
  exact (looks_spaces ordinary).bind (.pure _ _)

theorem parse_eq_unknownToken (ordinary : isSpace c = false) (text : c ≠ '<')
    (mark : c ≠ '\uFEFF') : parse (c :: cs) = .error (.unknownToken .start) := by
  have peek : Looks (Scan.peek : Scan Error (Option Char)) (c :: cs) (some c) := fun _ => rfl
  have no_root : Looks (pure { Builder.empty with top := [] } : Scan Error Builder) (c :: cs)
      { Builder.empty with top := [] } := .pure _ _
  have refused : document.outcome ⟨c :: cs, .start⟩ = .error (.unknownToken .start) := by
    rw [document, (looks_prolog ordinary text mark).outcome_bind, peek.outcome_bind,
      if_neg (by simpa using text), no_root.outcome_bind,
      (looks_miscellany ordinary text []).outcome_bind]
    rfl
  rw [parse, Scan.map_fst_run, Text.Cursor.ofChars, refused]
  rfl

end StumpCompiler.Xml
