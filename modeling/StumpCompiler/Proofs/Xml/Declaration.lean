import StumpCompiler.Proofs.Xml.Markup

/-! The grammar of XML declarations, as the standard gives it, and the characters they are made
of. -/

namespace StumpCompiler.Xml

/-- A part of a declaration as it is written, but for its name: white space, then the name, an
equals sign with white space around it, and a value between quotes. -/
structure DeclarationPart where
  blank : List Char
  beforeSign : List Char
  behindSign : List Char
  quote : Char
  value : List Char

namespace DeclarationPart

def text (p : DeclarationPart) (name : String) : List Char :=
  p.blank ++ (name.toList ++ (p.beforeSign ++ '=' :: (p.behindSign ++ p.quote :: (p.value ++
    [p.quote]))))

structure IsWellFormed (p : DeclarationPart) (allowed : List Char → Prop) : Prop where
  blank_ne_nil : p.blank ≠ []
  spaces : ∀ c ∈ p.blank ++ (p.beforeSign ++ p.behindSign), isSpace c
  quote : p.quote = '"' ∨ p.quote = '\''
  value : allowed p.value

end DeclarationPart

/-- A digit one, a dot and digits. -/
def IsVersionNumber (value : List Char) : Prop :=
  ∃ digits, value = '1' :: '.' :: digits ∧ digits ≠ [] ∧ ∀ c ∈ digits, c.isDigit

/-- A letter, then letters, digits, dots, underscores and hyphens. -/
def IsEncodingName (value : List Char) : Prop :=
  ∃ first rest, value = first :: rest ∧ first.isAlpha ∧
    ∀ c ∈ rest, c.isAlphanum ∨ c ∈ ['.', '_', '-']

def IsYesOrNo (value : List Char) : Prop :=
  value = "yes".toList ∨ value = "no".toList

/-- An XML declaration as it is written. -/
structure XmlDeclaration where
  version : DeclarationPart
  encoding : Option DeclarationPart
  standalone : Option DeclarationPart
  blank : List Char

namespace XmlDeclaration

/-- Everything up to the question mark at the end. -/
def body (d : XmlDeclaration) : List Char :=
  "<?xml".toList ++ d.version.text "version" ++ d.encoding.elim [] (·.text "encoding") ++
    d.standalone.elim [] (·.text "standalone") ++ d.blank

def text (d : XmlDeclaration) : List Char :=
  d.body ++ "?>".toList

structure IsWellFormed (d : XmlDeclaration) : Prop where
  version : d.version.IsWellFormed IsVersionNumber
  encoding : ∀ p ∈ d.encoding, p.IsWellFormed IsEncodingName
  standalone : ∀ p ∈ d.standalone, p.IsWellFormed IsYesOrNo
  blank : ∀ c ∈ d.blank, isSpace c

theorem exists_text_eq (d : XmlDeclaration) : ∃ tail, d.text = "<?xml".toList ++ tail := by
  unfold text body
  simp only [List.append_assoc]
  exact ⟨_, rfl⟩

/-- The value of the encoding part. -/
def encodingName? (d : XmlDeclaration) : Option String :=
  d.encoding.map fun p => String.ofList p.value

/-- The shortest declaration, or the shortest that gives an encoding. -/
def short (name : Option String) : XmlDeclaration where
  version := ⟨[' '], [], [], '"', "1.0".toList⟩
  encoding := name.map fun n => ⟨[' '], [], [], '"', n.toList⟩
  standalone := none
  blank := []

theorem isWellFormed_short {name : Option String} (named : ∀ n ∈ name, IsEncodingName n.toList) :
    (short name).IsWellFormed := by
  have version : IsVersionNumber "1.0".toList := ⟨['0'], rfl, by simp, by simp⟩
  refine ⟨⟨by simp [short], by simp [short, isSpace], .inl rfl, version⟩, ?_, ?_, by simp [short]⟩
  · intro p present
    obtain ⟨n, mem, rfl⟩ := Option.map_eq_some_iff.mp present
    exact ⟨by simp, by simp [isSpace], .inl rfl, named n mem⟩
  · intro p present
    contradiction

theorem encodingName?_short (name : Option String) : (short name).encodingName? = name := by
  simp [encodingName?, short, Function.comp_def]

end XmlDeclaration

/-! The characters of a declaration. -/

theorem isSpace_iff {c : Char} : isSpace c ↔ c = ' ' ∨ c = '\t' ∨ c = '\n' ∨ c = '\r' := by
  simp [isSpace, or_assoc]

variable {P : Char → Prop} {allowed : List Char → Prop}

/-- What holds of all that a part may be made of holds of its characters. -/
theorem DeclarationPart.IsWellFormed.forall_mem_text {p : DeclarationPart} {name : String}
    (h : p.IsWellFormed allowed) (marks : P '=' ∧ P '"' ∧ P '\'')
    (blank : P ' ' ∧ P '\t' ∧ P '\n' ∧ P '\r') (named : ∀ c ∈ name.toList, P c)
    (valued : ∀ value, allowed value → ∀ c ∈ value, P c) : ∀ c ∈ p.text name, P c := by
  have space : ∀ c ∈ p.blank ++ (p.beforeSign ++ p.behindSign), P c := by
    intro c mem
    rcases isSpace_iff.mp (h.spaces c mem) with rfl | rfl | rfl | rfl <;> tauto
  have quote : P p.quote := by
    rcases h.quote with eq | eq <;> rw [eq] <;> tauto
  intro c mem
  simp only [text, List.mem_append, List.mem_cons, List.not_mem_nil, or_false] at mem
  rcases mem with mem | mem | mem | rfl | mem | rfl | mem | rfl
  · exact space c (by simp [mem])
  · exact named c mem
  · exact space c (by simp [mem])
  · exact marks.1
  · exact space c (by simp [mem])
  · exact quote
  · exact valued _ h.value c mem
  · exact quote

/-- An ASCII character that does not end markup. -/
def isDeclarationChar (c : Char) : Bool :=
  c.toNat < 128 && c ≠ '>'

/-- The letter `c` stands in `encoding` and in encoding names only. -/
def isOtherChar (c : Char) : Bool :=
  isDeclarationChar c && c ≠ 'c'

theorem isDeclarationChar_of_isOtherChar {c : Char} (h : isOtherChar c) : isDeclarationChar c :=
  (Bool.and_eq_true_iff.mp h).1

theorem toNat_of_isAlphanum {c : Char} (h : c.isAlphanum) : 0x30 ≤ c.toNat ∧ c.toNat < 128 := by
  simp only [Char.isAlphanum, Char.isAlpha, Char.isUpper, Char.isLower, Char.isDigit, ge_iff_le,
    UInt32.le_iff_toNat_le, Bool.or_eq_true, Bool.and_eq_true, decide_eq_true_eq] at h
  simp at h
  omega

theorem isDeclarationChar_of_isAlphanum {c : Char} (h : c.isAlphanum) : isDeclarationChar c := by
  have other := ne_of_class h (by decide : '>'.isAlphanum = false)
  simp [isDeclarationChar, (toNat_of_isAlphanum h).2, other]

theorem isValueChar_of_isAlphanum {c : Char} (h : c.isAlphanum) : isValueChar c := by
  have range := toNat_of_isAlphanum h
  have char : isXmlChar c := by
    rw [isXmlChar, if_neg (by omega)]
    simp only [Bool.and_eq_true, decide_eq_true_eq]
    omega
  have marks : "<&\"\t\n\r".toList.all fun mark => !mark.isAlphanum := by decide
  rw [isValueChar, char, Bool.true_and, Bool.not_eq_true', ← Bool.not_eq_true,
    List.contains_iff_mem]
  intro mem
  have other := List.all_eq_true.mp marks c mem
  rw [h] at other
  contradiction

theorem IsEncodingName.forall_mem {value : List Char} (h : IsEncodingName value) :
    ∀ c ∈ value, c.isAlphanum ∨ c ∈ ['.', '_', '-'] := by
  obtain ⟨first, rest, rfl, letter, others⟩ := h
  rw [List.forall_mem_cons]
  exact ⟨.inl (by simp [Char.isAlphanum, letter]), others⟩

theorem IsEncodingName.isDeclarationChar {value : List Char} (h : IsEncodingName value) :
    ∀ c ∈ value, isDeclarationChar c := by
  intro c mem
  rcases h.forall_mem c mem with alphanum | mark
  · exact isDeclarationChar_of_isAlphanum alphanum
  · exact List.all_eq_true.mp (by decide : ['.', '_', '-'].all Xml.isDeclarationChar) c mark

theorem IsEncodingName.isValueChar {value : List Char} (h : IsEncodingName value) :
    ∀ c ∈ value, isValueChar c := by
  intro c mem
  rcases h.forall_mem c mem with alphanum | mark
  · exact isValueChar_of_isAlphanum alphanum
  · exact List.all_eq_true.mp (by decide : ['.', '_', '-'].all Xml.isValueChar) c mark

theorem IsEncodingName.of_map_toLower {value : List Char}
    (h : IsEncodingName (value.map Char.toLower)) : IsEncodingName value := by
  obtain ⟨first, rest, eq, letter, others⟩ := h
  obtain ⟨first, rest, rfl, rfl, rfl⟩ := List.map_eq_cons_iff.mp eq
  refine ⟨first, rest, rfl, by simpa using letter, fun c mem => ?_⟩
  have lower := others c.toLower (List.mem_map_of_mem mem)
  by_cases upper : c.isUpper
  · exact .inl (by simp [Char.isAlphanum, Char.isAlpha, upper])
  · rwa [Char.toLower_eq_of_not_isUpper upper] at lower

/-- An encoding name may stand between quotes of either kind. -/
theorem IsEncodingName.quote_not_mem {value : List Char} {q : Char} (h : IsEncodingName value)
    (quote : q = '"' ∨ q = '\'') : q ∉ value := by
  intro mem
  have one := h.forall_mem q mem
  rcases quote with rfl | rfl <;> exact absurd one (by decide)

theorem IsVersionNumber.forall_mem {value : List Char} (h : IsVersionNumber value) :
    ∀ c ∈ value, isOtherChar c := by
  obtain ⟨digits, rfl, -, all⟩ := h
  rw [List.forall_mem_cons, List.forall_mem_cons]
  refine ⟨by decide, by decide, fun c mem => ?_⟩
  have digit := all c mem
  have other : c ≠ 'c' := by
    rintro rfl
    contradiction
  have char := isDeclarationChar_of_isAlphanum (c := c) (by simp [Char.isAlphanum, digit])
  simp [isOtherChar, char, other]

theorem IsYesOrNo.forall_mem {value : List Char} (h : IsYesOrNo value) :
    ∀ c ∈ value, isOtherChar c := by
  rcases h with rfl | rfl <;> exact List.all_eq_true.mp (by decide)

namespace XmlDeclaration.IsWellFormed

variable {d : XmlDeclaration} {p : DeclarationPart}

theorem version_chars (h : d.IsWellFormed) : ∀ c ∈ d.version.text "version", isOtherChar c :=
  h.version.forall_mem_text (by decide) (by decide) (List.all_eq_true.mp (by decide))
    fun _ => IsVersionNumber.forall_mem

theorem encoding_chars (h : d.IsWellFormed) (present : p ∈ d.encoding) :
    ∀ c ∈ p.text "encoding", isDeclarationChar c :=
  (h.encoding p present).forall_mem_text (by decide) (by decide)
    (List.all_eq_true.mp (by decide)) fun _ => IsEncodingName.isDeclarationChar

theorem standalone_chars (h : d.IsWellFormed) :
    ∀ c ∈ d.standalone.elim [] (·.text "standalone"), isOtherChar c := by
  cases present : d.standalone with
  | none => simp
  | some p =>
    exact (h.standalone p present).forall_mem_text (by decide) (by decide)
      (List.all_eq_true.mp (by decide)) fun _ => IsYesOrNo.forall_mem

theorem blank_chars (h : d.IsWellFormed) : ∀ c ∈ d.blank, isOtherChar c := by
  intro c mem
  rcases isSpace_iff.mp (h.blank c mem) with rfl | rfl | rfl | rfl <;> decide

theorem body_chars (h : d.IsWellFormed) : ∀ c ∈ d.body, isDeclarationChar c := by
  have start : ∀ c ∈ "<?xml".toList, isDeclarationChar c := List.all_eq_true.mp (by decide)
  intro c mem
  unfold body at mem
  simp only [List.mem_append] at mem
  rcases mem with (((mem | mem) | mem) | mem) | mem
  · exact start c mem
  · exact isDeclarationChar_of_isOtherChar (h.version_chars c mem)
  · cases present : d.encoding with
    | none => simp [present] at mem
    | some p =>
      rw [present] at mem
      exact h.encoding_chars present c mem
  · exact isDeclarationChar_of_isOtherChar (h.standalone_chars c mem)
  · exact isDeclarationChar_of_isOtherChar (h.blank_chars c mem)

theorem text_chars (h : d.IsWellFormed) : ∀ c ∈ d.text, c.toNat < 128 := by
  intro c mem
  rcases List.mem_append.mp mem with mem | mem
  · have char := h.body_chars c mem
    simp only [isDeclarationChar, Bool.and_eq_true, decide_eq_true_eq] at char
    exact char.1
  · have ends : "?>".toList.all (·.toNat < 128) := by decide
    simpa using List.all_eq_true.mp ends c mem

theorem not_mem_front (h : d.IsWellFormed) :
    'c' ∉ "<?xml".toList ++ d.version.text "version" := by
  rw [List.mem_append, not_or]
  exact ⟨by decide, fun mem => absurd (h.version_chars _ mem) (by decide)⟩

theorem not_mem_body (h : d.IsWellFormed) (absent : d.encoding = none) : 'c' ∉ d.body := by
  have other : isOtherChar 'c' = false := by decide
  have parts : d.body = "<?xml".toList ++ d.version.text "version" ++
      (d.standalone.elim [] (·.text "standalone") ++ d.blank) := by
    unfold body
    simp only [absent, Option.elim_none, List.append_nil, List.append_assoc]
  rw [parts, List.mem_append, not_or, List.mem_append (s := d.standalone.elim _ _), not_or]
  exact ⟨h.not_mem_front,
    fun mem => Bool.false_ne_true (other.symm.trans (h.standalone_chars _ mem)),
    fun mem => Bool.false_ne_true (other.symm.trans (h.blank_chars _ mem))⟩

end XmlDeclaration.IsWellFormed

end StumpCompiler.Xml
