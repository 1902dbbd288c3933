import StumpCompiler.Proofs.Text.Scan
import StumpCompiler.Xml.Markup

/-! Names, blanks, quoted values and the declaration, as they are written. -/

namespace StumpCompiler.Xml

open Text (Scan Position)

/-- A name without a qualifier. -/
def IsPlainName (s : String) : Prop :=
  Name.ofChars? s.toList = some ⟨"", s⟩ ∧ ∀ c ∈ s.toList, isNameChar c

theorem IsPlainName.of_all {s : String} (named : Name.ofChars? s.toList = some ⟨"", s⟩)
    (all : s.toList.all isNameChar) : IsPlainName s :=
  ⟨named, List.all_eq_true.mp all⟩

theorem IsPlainName.exists_cons {s : String} (h : IsPlainName s) :
    ∃ c cs, s.toList = c :: cs ∧ isNameChar c := by
  cases chars : s.toList with
  | nil =>
    have named := h.1
    rw [chars] at named
    simp [Name.ofChars?] at named
  | cons c cs => exact ⟨c, cs, rfl, h.2 c (by simp [chars])⟩

/-- A character of some class is none that is not of that class. -/
theorem ne_of_class {p : Char → Bool} {c d : Char} (h : p c) (other : p d = false) : c ≠ d := by
  rintro rfl
  rw [h] at other
  contradiction

theorem isSpace_of_isNameChar {c : Char} (h : isNameChar c) : isSpace c = false := by
  have blank := ne_of_class h (by decide : isNameChar ' ' = false)
  have tab := ne_of_class h (by decide : isNameChar '\t' = false)
  have newline := ne_of_class h (by decide : isNameChar '\n' = false)
  have carriage_return := ne_of_class h (by decide : isNameChar '\r' = false)
  simp [isSpace, blank, tab, newline, carriage_return]

/-- Characters of a document that stand for themselves in an attribute value between double
quotes. -/
def isValueChar (c : Char) : Bool :=
  isXmlChar c && !"<&\"\t\n\r".toList.contains c

variable {rest : List Char}

theorem reads_expect (w : Char) : (expect w).Reads [w] rest fun _ => True := by
  refine .here fun place => ?_
  simp only [List.cons_append, List.nil_append, ↓reduceIte]
  exact .skip rfl

theorem reads_expectText (word : String) :
    (expectText word).Reads word.toList rest fun _ => True := by
  refine .position fun place => ?_
  refine .bind_all .accept fun _ accepted => ?_
  rw [if_pos accepted]
  exact .pure trivial

theorem reads_spaces {text : List Char} (all : ∀ c ∈ text, isSpace c)
    (stops : ∀ c ∈ rest.head?, isSpace c = false) : spaces.Reads text rest fun _ => True :=
  .bind_all (.takeWhile all stops) fun _ _ => .pure trivial

theorem firstForbidden_eq_none {cs : List Char} (all : ∀ c ∈ cs, isXmlChar c) (p : Position) :
    firstForbidden p cs = none := by
  induction cs generalizing p with
  | nil => rfl
  | cons c cs ih =>
    rw [firstForbidden, if_pos (all c (by simp))]
    exact ih (fun d hd => all d (by simp [hd])) _

theorem allowed_eq_ok {cs : List Char} (all : ∀ c ∈ cs, isXmlChar c) (p : Position) :
    allowed p cs = .ok () := by
  rw [allowed, firstForbidden_eq_none all]

theorem reads_charsUpTo {stop : List Char → Bool} {text : List Char}
    (all : ∀ c ∈ text, isXmlChar c)
    (reads_on : ∀ cs ds, text = cs ++ ds → ds ≠ [] → stop (ds ++ rest) = false)
    (stops : rest = [] ∨ stop rest) : (charsUpTo stop).Reads text rest (· = text) := by
  refine .position fun place => ?_
  refine .bind_all_eq (.upTo reads_on stops) ?_
  exact .lift_bind (allowed_eq_ok all place) (.pure rfl)

theorem reads_qualifiedName {name : String} (plain : IsPlainName name)
    (stops : ∀ c ∈ rest.head?, isNameChar c = false) :
    qualifiedName.Reads name.toList rest (· = ⟨"", name⟩) := by
  refine .position fun place => ?_
  refine .bind_all_eq (.takeWhile plain.2 stops) ?_
  rw [plain.1]
  exact .pure rfl

theorem reads_equalsSign (stops : ∀ c ∈ rest.head?, isSpace c = false) :
    equalsSign.Reads ['='] rest fun _ => True := by
  refine .bind_nothing (reads_spaces (by simp) (by simp; decide)) fun _ _ => ?_
  exact .bind_all (reads_expect '=') fun _ _ => reads_spaces (by simp) stops

theorem reads_quote : quote.Reads ['"'] rest (· = '"') := by
  refine .here fun place => ?_
  simp only [List.cons_append, List.nil_append, decide_true, Bool.true_or, ↓reduceIte]
  exact .bind_all (.skip rfl) fun _ _ => .pure rfl

/-- A name with its value between double quotes. -/
def quoted (name value : String) : List Char :=
  name.toList ++ '=' :: '"' :: value.toList ++ ['"']

theorem reads_rawAttribute {name value : String} (plain : IsPlainName name)
    (all : ∀ c ∈ value.toList, isValueChar c) :
    rawAttribute.Reads (quoted name value) rest fun raw =>
      raw.name = ⟨"", name⟩ ∧ raw.value = value.toList := by
  have parts : quoted name value = name.toList ++ (['='] ++ (['"'] ++ (value.toList ++ ['"']))) := by
    simp [quoted]
  rw [parts]
  refine .position fun place => ?_
  refine .bind_eq (reads_qualifiedName plain (by simp; decide)) ?_
  refine .bind (reads_equalsSign (by simp; decide)) fun _ _ => ?_
  refine .bind_eq reads_quote ?_
  refine .position fun value_place => ?_
  refine .bind_eq (reads_charsUpTo ?_ ?_ (.inr (by simp))) ?_
  · intro c hc
    have := all c hc
    simp only [isValueChar, Bool.and_eq_true] at this
    exact this.1
  · rintro cs (_ | ⟨d, ds⟩) eq ne
    · contradiction
    · have := all d (by simp [eq])
      simp [isValueChar] at this
      simp [this]
  · exact .bind_all (reads_expect '"') fun _ _ => .pure ⟨rfl, rfl⟩

end StumpCompiler.Xml
