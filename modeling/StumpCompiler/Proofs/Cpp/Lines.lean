import Mathlib
import StumpCompiler.Cpp.Header
import StumpCompiler.Cpp.Source

/-! The text of a listing is its lines, each followed by a line end. -/

namespace StumpCompiler.Cpp

/-- A line with its end. -/
def ended (line : String) : List Char :=
  line.toList ++ ['\n']

/-- The lines of a text; the line end behind the last of them opens no further line. -/
def linesOf (text : List Char) : List (List Char) :=
  let pieces := text.splitOn '\n'
  if pieces.getLast? = some [] then pieces.dropLast else pieces

namespace Listing

theorem toList_text_line (l : Listing) (s : String) :
    (l.line s).text.toList = l.text.toList ++ ended s := by
  simp [line, ended]

theorem toList_text_lines (l : Listing) (ss : List String) :
    (l.lines ss).text.toList = l.text.toList ++ ss.flatMap ended := by
  induction ss generalizing l with
  | nil => simp [lines]
  | cons s ss ih =>
    have first : l.lines (s :: ss) = (l.line s).lines ss := rfl
    rw [first, ih, toList_text_line, List.flatMap_cons, List.append_assoc]

end Listing

theorem toList_header (s : Settings) : (header s).toList = (headerLines s).flatMap ended := by
  rw [header, Listing.toList_text_lines]
  simp [Listing.empty]

theorem toList_source (m : Model) (s : Settings) :
    (source m s).toList = (sourceLines m s).flatMap ended := by
  rw [source, sourceListing, Listing.toList_text_lines]
  simp [Listing.empty]

/-! Names of values. -/

theorem valueIdentifier_inj {a b : String} (h : valueIdentifier a = valueIdentifier b) : a = b := by
  rw [← String.toList_inj] at h ⊢
  simpa [valueIdentifier] using h

theorem valueIdentifier_ne (column : String) {x : String} (h : x.toList.take 2 ≠ ['v', 'a']) :
    valueIdentifier column ≠ x := by
  rintro rfl
  simp [valueIdentifier] at h

end StumpCompiler.Cpp
