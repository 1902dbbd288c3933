import StumpCompiler.Encoding
import StumpCompiler.Proofs.Text.Cut
import StumpCompiler.Proofs.Text.Utf8
import StumpCompiler.Proofs.Xml.Declaration

/-!
Which encoding the bytes of a file declare: the one that a well-formed declaration at their start
gives, and what a looser search finds where there is none. A document in UTF-8 whose declaration
names no encoding is decoded as what it is.
-/

namespace StumpCompiler.Encoding

open Text (cutBefore IsFirst cutBefore_word_iff dropWhile_eq_cons_iff)

/-- The bytes behind a byte order mark, if one stands in front of them. -/
def unmarked (bytes : List UInt8) : List UInt8 :=
  if byteOrderMark.isPrefixOf bytes then bytes.drop 3 else bytes

/-- An equals sign with blanks around it, and the value between quotes. -/
def IsAssignment (cs : List Char) (value : String) : Prop :=
  ∃ before behind q more, cs = before ++ '=' :: (behind ++ q :: (value.toList ++ q :: more)) ∧
    (∀ c ∈ before, isBlank c) ∧ (∀ c ∈ behind, isBlank c) ∧ (q = '"' ∨ q = '\'') ∧
    q ∉ value.toList

theorem isAssignment_of_quotedValue? {cs : List Char} {value : String}
    (h : quotedValue? cs = some value) : IsAssignment cs value := by
  unfold quotedValue? at h
  split at h
  · next rest sign =>
    obtain ⟨before, rfl, blank_before, -⟩ := dropWhile_eq_cons_iff.mp sign
    split at h
    · next q rest opening =>
      obtain ⟨behind, rfl, blank_behind, -⟩ := dropWhile_eq_cons_iff.mp opening
      split at h
      · next quote =>
        simp only [List.span_eq_takeWhile_dropWhile] at h
        split at h
        · contradiction
        · next closed =>
          obtain ⟨x, more, tail⟩ := List.exists_cons_of_ne_nil (mt List.isEmpty_iff.mpr closed)
          obtain ⟨-, -, -, same⟩ := dropWhile_eq_cons_iff.mp tail
          obtain rfl : x = q := by simpa using same
          obtain rfl := Option.some.inj h
          refine ⟨before, behind, x, more, ?_, blank_before, blank_behind, by simpa using quote,
            ?_⟩
          · rw [String.toList_ofList, ← tail, List.takeWhile_append_dropWhile]
          · rw [String.toList_ofList]
            exact fun mem => by simpa using List.mem_takeWhile_imp mem
      · contradiction
    · contradiction
  · contradiction

theorem quotedValue?_of_isAssignment {cs : List Char} {value : String}
    (h : IsAssignment cs value) : quotedValue? cs = some value := by
  obtain ⟨before, behind, q, more, rfl, blank_before, blank_behind, quote, inside⟩ := h
  have no_blank : isBlank q = false := by rcases quote with rfl | rfl <;> decide
  have sign : (before ++ '=' :: (behind ++ q :: (value.toList ++ q :: more))).dropWhile isBlank =
      '=' :: (behind ++ q :: (value.toList ++ q :: more)) :=
    dropWhile_eq_cons_iff.mpr ⟨before, rfl, blank_before, by decide⟩
  have opening : (behind ++ q :: (value.toList ++ q :: more)).dropWhile isBlank =
      q :: (value.toList ++ q :: more) :=
    dropWhile_eq_cons_iff.mpr ⟨behind, rfl, blank_behind, no_blank⟩
  have inner : ∀ c ∈ value.toList, decide (c ≠ q) = true := fun c mem =>
    decide_eq_true (ne_of_mem_of_not_mem mem inside)
  unfold quotedValue?
  simp only [sign, opening, List.span_eq_takeWhile_dropWhile,
    List.takeWhile_append_of_pos inner, List.dropWhile_append_of_pos inner]
  simp [quote]

theorem quotedValue?_eq_some_iff {cs : List Char} {value : String} :
    quotedValue? cs = some value ↔ IsAssignment cs value :=
  ⟨isAssignment_of_quotedValue?, quotedValue?_of_isAssignment⟩

theorem behind?_eq_some_iff {word : String} {cs rest : List Char} (some_word : word.toList ≠ []) :
    behind? word cs = some rest ↔ ∃ before, cs = before ++ (word.toList ++ rest) ∧
      IsFirst word.toList before (word.toList ++ rest) := by
  have drop (rest : List Char) : (word.toList ++ rest).drop word.length = rest :=
    List.drop_left' String.length_toList
  rcases cut : cutBefore (word.toList.isPrefixOf ·) cs with ⟨before, found⟩
  have value : behind? word cs =
      if found = [] then none else some (found.drop word.length) := by
    rw [behind?, cut]
    cases found <;> rfl
  rw [value]
  constructor
  · intro h
    split at h
    · contradiction
    · next some_left =>
      obtain ⟨split, first⟩ := (cutBefore_word_iff some_word).mp ⟨cut, some_left⟩
      obtain ⟨tail, rfl⟩ := first.here
      rw [drop, Option.some_inj] at h
      subst h
      exact ⟨before, split, first⟩
  · rintro ⟨before', split, first⟩
    obtain ⟨cut', some_left⟩ := (cutBefore_word_iff some_word).mpr ⟨split, first⟩
    obtain ⟨rfl, rfl⟩ := Prod.mk.inj (cut.symm.trans cut')
    rw [if_neg some_left, drop]

/-- The text assigns the value to the word `encoding` where that stands first. -/
def GivesEncoding (text : List Char) (value : String) : Prop :=
  ∃ before assignment, text = before ++ ("encoding".toList ++ assignment) ∧
    IsFirst "encoding".toList before ("encoding".toList ++ assignment) ∧
    IsAssignment assignment value

theorem bind_quotedValue?_eq_some_iff {text : List Char} {value : String} :
    (behind? "encoding" text).bind quotedValue? = some value ↔ GivesEncoding text value := by
  rw [Option.bind_eq_some_iff, GivesEncoding]
  constructor
  · rintro ⟨assignment, found, valued⟩
    obtain ⟨before, split, first⟩ := (behind?_eq_some_iff (by decide)).mp found
    exact ⟨before, assignment, split, first, quotedValue?_eq_some_iff.mp valued⟩
  · rintro ⟨before, assignment, split, first, valued⟩
    exact ⟨assignment, (behind?_eq_some_iff (by decide)).mpr ⟨before, split, first⟩,
      quotedValue?_eq_some_iff.mpr valued⟩

/-- The bytes start with `<?xml`, and the text in front of the first `?>` gives the encoding. -/
def NamesEncoding (bytes : List UInt8) (value : String) : Prop :=
  ∃ start rest text, bytes = start ++ rest ∧ IsFirst (ascii "?>") start rest ∧
    ascii "<?xml" <+: bytes ∧ Text.Utf8.decode start = .ok text ∧ GivesEncoding text value

/-- What is read in front of the first `?>` counts as a declaration. -/
theorem declared?_eq_some_iff {bytes : List UInt8} {value : String} :
    declared? bytes = some value ↔ NamesEncoding (unmarked bytes) value := by
  have bare : (if byteOrderMark.isPrefixOf bytes then bytes.drop 3 else bytes) =
      unmarked bytes := rfl
  rw [declared?, bare, NamesEncoding, ← List.isPrefixOf_iff_prefix]
  rcases cut : cutBefore ((ascii "?>").isPrefixOf ·) (unmarked bytes) with ⟨start, rest⟩
  constructor
  · intro h
    split at h
    · next begins =>
      cases rest with
      | nil => contradiction
      | cons b rest =>
        obtain ⟨split, first⟩ := (cutBefore_word_iff (by decide)).mp ⟨cut, by simp⟩
        cases decoded : Text.Utf8.decode start with
        | error e => simp [decoded] at h
        | ok text =>
          simp only [decoded] at h
          exact ⟨start, b :: rest, text, split, first, begins, decoded,
            bind_quotedValue?_eq_some_iff.mp h⟩
    · contradiction
  · rintro ⟨start', rest', text, split, first, begins, decoded, gives⟩
    obtain ⟨cut', some_left⟩ := (cutBefore_word_iff (by decide)).mpr ⟨split, first⟩
    obtain ⟨rfl, rfl⟩ := Prod.mk.inj (cut.symm.trans cut')
    obtain ⟨b, rest, rfl⟩ := List.exists_cons_of_ne_nil some_left
    rw [if_pos begins]
    simp only [decoded]
    exact bind_quotedValue?_eq_some_iff.mpr gives

/-! Well-formed declarations. -/

section

open Xml (XmlDeclaration isDeclarationChar)

variable {d : XmlDeclaration} {bytes rest : List UInt8}

theorem unmarked_mark (bytes : List UInt8) : unmarked (byteOrderMark ++ bytes) = bytes := by
  simp [unmarked, byteOrderMark]

theorem unmarked_of_begins (h : ascii "<?xml" <+: bytes) : unmarked bytes = bytes := by
  obtain ⟨tail, rfl⟩ := h
  simp [unmarked, byteOrderMark, ascii]

theorem begins_text (d : XmlDeclaration) (rest : List UInt8) :
    ascii "<?xml" <+: Text.Utf8.encode d.text ++ rest := by
  obtain ⟨tail, eq⟩ := d.exists_text_eq
  have parts : Text.Utf8.encode d.text = ascii "<?xml" ++ Text.Utf8.encode tail := by
    rw [eq]
    exact List.flatMap_append
  rw [parts, List.append_assoc]
  exact List.prefix_append _ _

theorem isBlank_of_isSpace {c : Char} (h : Xml.isSpace c) : isBlank c := by
  rcases Xml.isSpace_iff.mp h with rfl | rfl | rfl | rfl <;> decide

theorem encode_text (d : XmlDeclaration) :
    Text.Utf8.encode d.text = Text.Utf8.encode d.body ++ ascii "?>" :=
  List.flatMap_append

theorem isFirst_end (h : d.IsWellFormed) (rest : List UInt8) :
    IsFirst (ascii "?>") (Text.Utf8.encode d.body) (ascii "?>" ++ rest) := by
  have chars (c : Char) (mem : c ∈ d.body) : c.toNat < 128 ∧ c ≠ '>' := by
    have char := h.body_chars c mem
    simpa [isDeclarationChar] using char
  have absent : (0x3E : UInt8) ∉ Text.Utf8.encode d.body := by
    rw [Text.Utf8.encode_ascii fun c mem => (chars c mem).1]
    intro mem
    obtain ⟨c, mem, same⟩ := List.mem_map.mp mem
    have small := (chars c mem).1
    have number : c.toNat.toUInt8.toNat = c.toNat := Text.Utf8.toNat_toUInt8 (by omega)
    rw [same] at number
    exact (chars c mem).2 (Char.toNat_inj.mp number.symm)
  exact Text.isFirst_of_not_mem [0x3F] 0x3E [] (by decide) absent

theorem givesEncoding_body (h : d.IsWellFormed) {p : Xml.DeclarationPart}
    (present : d.encoding = some p) : GivesEncoding d.body (String.ofList p.value) := by
  have part := h.encoding p present
  have blank : ∀ c ∈ p.blank ++ (p.beforeSign ++ p.behindSign), isBlank c := fun c mem =>
    isBlank_of_isSpace (part.spaces c mem)
  have absent : 'c' ∉ "<?xml".toList ++ d.version.text "version" ++ p.blank := by
    rw [List.mem_append, not_or]
    refine ⟨h.not_mem_front, fun mem => ?_⟩
    exact absurd (part.spaces 'c' (List.mem_append_left _ mem)) (by decide)
  generalize more : d.standalone.elim [] (·.text "standalone") ++ d.blank = tail
  refine ⟨_, p.beforeSign ++ '=' :: (p.behindSign ++ p.quote :: (p.value ++ p.quote :: tail)), ?_,
    Text.isFirst_of_not_mem "en".toList 'c' "oding".toList (by decide) absent, p.beforeSign,
    p.behindSign, p.quote, tail, ?_, ?_, ?_, part.quote, ?_⟩
  · unfold XmlDeclaration.body
    simp only [present, Option.elim_some, Xml.DeclarationPart.text, ← more, List.append_assoc,
      List.cons_append, List.nil_append]
  · rw [String.toList_ofList]
  · exact fun c mem => blank c (by simp [mem])
  · exact fun c mem => blank c (by simp [mem])
  · rw [String.toList_ofList]
    exact part.value.quote_not_mem part.quote

/-- A well-formed declaration names the encoding that it gives. -/
theorem declared?_of_isWellFormed (h : d.IsWellFormed)
    (begins : Text.Utf8.encode d.text <+: unmarked bytes) : declared? bytes = d.encodingName? := by
  obtain ⟨rest, bare⟩ := begins
  have first := isFirst_end h rest
  have parts : Text.Utf8.encode d.text ++ rest =
      Text.Utf8.encode d.body ++ (ascii "?>" ++ rest) := by
    rw [encode_text, List.append_assoc]
  have decoded := Text.Utf8.decode_encode d.body
  cases present : d.encoding with
  | some p =>
    rw [XmlDeclaration.encodingName?, present, Option.map_some, declared?_eq_some_iff, ← bare]
    exact ⟨_, _, _, parts, first, begins_text d rest, decoded, givesEncoding_body h present⟩
  | none =>
    rw [XmlDeclaration.encodingName?, present, Option.map_none, Option.eq_none_iff_forall_ne_some]
    intro value named
    rw [declared?_eq_some_iff, ← bare] at named
    obtain ⟨start, rest', text, split, first', -, decoded', before, assignment, rfl, -, -⟩ := named
    obtain ⟨cut, -⟩ := (cutBefore_word_iff (by decide)).mpr ⟨parts, first⟩
    obtain ⟨cut', -⟩ := (cutBefore_word_iff (by decide)).mpr ⟨split, first'⟩
    obtain ⟨rfl, -⟩ := Prod.mk.inj (cut.symm.trans cut')
    have same := Except.ok.inj (decoded.symm.trans decoded')
    exact h.not_mem_body present (by rw [same]; simp)

theorem declared?_of_not_begins (other : ¬ascii "<?xml" <+: unmarked bytes) :
    declared? bytes = none := by
  rw [Option.eq_none_iff_forall_ne_some]
  intro value named
  obtain ⟨-, -, -, -, -, begins, -⟩ := declared?_eq_some_iff.mp named
  exact other begins

end

/-! What is made of the bytes. -/

/-- The label is one of ISO-8859-1, in letters of any case. -/
def NamesLatin1 (label : String) : Prop :=
  String.ofList (label.toList.map Char.toLower) ∈ latin1Labels

section

variable {bytes : List UInt8} {label : String}

theorem decode_of_namesLatin1 (declared : declared? bytes = some label)
    (latin1 : NamesLatin1 label) : decode bytes = .ok (decodeLatin1 bytes) := by
  have found : latin1Label? bytes = some label := by
    rw [latin1Label?, declared]
    exact Option.filter_eq_some_iff.mpr ⟨rfl, List.elem_eq_true_of_mem latin1⟩
  rw [decode, found]
  rfl

theorem decode_of_not_namesLatin1 (other : ∀ label, declared? bytes = some label →
    ¬NamesLatin1 label) : decode bytes = (Text.Utf8.decode bytes).mapError .notUtf8 := by
  have none_found : latin1Label? bytes = none := by
    rw [latin1Label?, Option.filter_eq_none_iff]
    intro label declared listed
    exact other label declared (List.mem_of_elem_eq_true listed)
  rw [decode, none_found]
  rfl

end

/-! Files that start with the shortest declaration. -/

section

open Xml (XmlDeclaration IsEncodingName)

variable {name : Option String} {label : String}

theorem declared?_short (named : ∀ n ∈ name, IsEncodingName n.toList) (rest : List UInt8) :
    declared? (Text.Utf8.encode (XmlDeclaration.short name).text ++ rest) = name := by
  have begins : Text.Utf8.encode (XmlDeclaration.short name).text <+:
      unmarked (Text.Utf8.encode (XmlDeclaration.short name).text ++ rest) := by
    rw [unmarked_of_begins (begins_text _ rest)]
    exact List.prefix_append _ _
  rw [declared?_of_isWellFormed (XmlDeclaration.isWellFormed_short named) begins,
    XmlDeclaration.encodingName?_short]

/-- The bytes of a text in UTF-8 are decoded to it, where no other encoding is declared. -/
theorem decode_encode (named : ∀ n ∈ name, IsEncodingName n.toList)
    (other : ∀ n ∈ name, ¬NamesLatin1 n) (text : List Char) :
    decode (Text.Utf8.encode ((XmlDeclaration.short name).text ++ text)) =
      .ok ((XmlDeclaration.short name).text ++ text) := by
  have parts : Text.Utf8.encode ((XmlDeclaration.short name).text ++ text) =
      Text.Utf8.encode (XmlDeclaration.short name).text ++ Text.Utf8.encode text :=
    List.flatMap_append
  have declared := declared?_short named (Text.Utf8.encode text)
  rw [← parts] at declared
  rw [decode_of_not_namesLatin1 (by simpa [declared] using other), Text.Utf8.decode_encode]
  rfl

/-- One byte for each character. -/
def latin1Bytes (text : List Char) : List UInt8 :=
  text.map fun c => c.toNat.toUInt8

theorem decodeLatin1_latin1Bytes {text : List Char} (small : ∀ c ∈ text, c.toNat ≤ 0xFF) :
    decodeLatin1 (latin1Bytes text) = text := by
  rw [decodeLatin1, latin1Bytes, List.map_map]
  refine (List.map_congr_left fun c mem => ?_).trans (List.map_id text)
  have value : c.toNat.toUInt8.toNat = c.toNat :=
    Text.Utf8.toNat_toUInt8 (by have := small c mem; omega)
  simp only [Function.comp_apply, value, Char.ofNat_toNat, id_eq]

theorem NamesLatin1.isEncodingName (h : NamesLatin1 label) : IsEncodingName label.toList := by
  have lower : IsEncodingName (label.toList.map Char.toLower) := by
    have listed : ∀ s ∈ latin1Labels, IsEncodingName s.toList := by
      simp [latin1Labels, Xml.IsEncodingName]
    simpa using listed _ h
  exact lower.of_map_toLower

theorem decode_latin1Bytes (latin1 : NamesLatin1 label) {text : List Char}
    (small : ∀ c ∈ text, c.toNat ≤ 0xFF) :
    decode (latin1Bytes ((XmlDeclaration.short (some label)).text ++ text)) =
      .ok ((XmlDeclaration.short (some label)).text ++ text) := by
  have named : ∀ n ∈ some label, IsEncodingName n.toList := by simpa using latin1.isEncodingName
  have chars : ∀ c ∈ (XmlDeclaration.short (some label)).text, c.toNat < 128 :=
    (XmlDeclaration.isWellFormed_short named).text_chars
  have parts : latin1Bytes ((XmlDeclaration.short (some label)).text ++ text) =
      Text.Utf8.encode (XmlDeclaration.short (some label)).text ++ latin1Bytes text := by
    rw [Text.Utf8.encode_ascii chars]
    exact List.map_append
  have declared := declared?_short named (latin1Bytes text)
  rw [← parts] at declared
  rw [decode_of_namesLatin1 declared latin1, decodeLatin1_latin1Bytes]
  intro c mem
  rcases List.mem_append.mp mem with mem | mem
  · exact (chars c mem).le.trans (by decide)
  · exact small c mem

end

/-- A well-formed declaration at the start of a file decides the encoding. The search finds one in
other files too: white space behind `<?xml` is not asked for. -/
theorem declared?_spec (bytes : List UInt8) :
    (∀ d : Xml.XmlDeclaration, d.IsWellFormed → Text.Utf8.encode d.text <+: unmarked bytes →
      declared? bytes = d.encodingName?) ∧
    (∀ label, declared? bytes = some label ↔ NamesEncoding (unmarked bytes) label) ∧
    (¬ascii "<?xml" <+: unmarked bytes → declared? bytes = none) ∧
    (∀ label, declared? bytes = some label → NamesLatin1 label →
      decode bytes = .ok (decodeLatin1 bytes)) ∧
    ((∀ label, declared? bytes = some label → ¬NamesLatin1 label) →
      decode bytes = (Text.Utf8.decode bytes).mapError .notUtf8) :=
  ⟨fun _ => declared?_of_isWellFormed, fun _ => declared?_eq_some_iff, declared?_of_not_begins,
    fun _ => decode_of_namesLatin1, decode_of_not_namesLatin1⟩

/-- `<?xml version='1.0' encoding = "Latin1" standalone='no' ?>` -/
def spacedDeclaration : Xml.XmlDeclaration where
  version := ⟨[' '], [], [], '\'', "1.0".toList⟩
  encoding := some ⟨[' '], [' '], [' '], '"', "Latin1".toList⟩
  standalone := some ⟨['\t'], [], [], '\'', "no".toList⟩
  blank := [' ']

def markedFile : List UInt8 :=
  byteOrderMark ++ (Text.Utf8.encode spacedDeclaration.text ++ ascii "<m/>")

theorem declared?_spec_marked :
    (spacedDeclaration.IsWellFormed ∧
      Text.Utf8.encode spacedDeclaration.text <+: unmarked markedFile ∧
      declared? markedFile = some "Latin1" ∧ NamesLatin1 "Latin1" ∧
      decode markedFile = .ok (decodeLatin1 markedFile)) ∧
    ¬ascii "<?xml" <+: unmarked (ascii "<m/>") ∧ declared? (ascii "<m/>") = none ∧
      decode (ascii "<m/>") = (Text.Utf8.decode (ascii "<m/>")).mapError .notUtf8 := by
  have version : Xml.IsVersionNumber "1.0".toList := ⟨['0'], rfl, by simp, by simp⟩
  have named : Xml.IsEncodingName "Latin1".toList := ⟨'L', "atin1".toList, rfl, by simp, by simp⟩
  have wellFormed : spacedDeclaration.IsWellFormed := by
    refine ⟨⟨by simp [spacedDeclaration], by simp [spacedDeclaration, Xml.isSpace], .inr rfl,
      version⟩, ?_, ?_, by simp [spacedDeclaration, Xml.isSpace]⟩
    · rintro p ⟨⟩
      exact ⟨by simp, by simp [Xml.isSpace], .inl rfl, named⟩
    · rintro p ⟨⟩
      exact ⟨by simp, by simp [Xml.isSpace], .inr rfl, .inr rfl⟩
  have bare : unmarked markedFile = Text.Utf8.encode spacedDeclaration.text ++ ascii "<m/>" :=
    unmarked_mark _
  have begins : Text.Utf8.encode spacedDeclaration.text <+: unmarked markedFile := by
    rw [bare]
    exact List.prefix_append _ _
  have latin1 : NamesLatin1 "Latin1" := by
    rw [NamesLatin1]
    decide
  have other : ¬ascii "<?xml" <+: unmarked (ascii "<m/>") := by decide
  obtain ⟨declares, -, -, reads_latin1, -⟩ := declared?_spec markedFile
  obtain ⟨-, -, declares_none, -, reads_utf8⟩ := declared?_spec (ascii "<m/>")
  have declared := declares spacedDeclaration wellFormed begins
  exact ⟨⟨wellFormed, begins, declared, latin1, reads_latin1 _ declared latin1⟩, other,
    declares_none other, reads_utf8 (by simp [declares_none other])⟩

/-- A stylesheet is named in front of the root, and no declaration. -/
def styledFile : List UInt8 :=
  Text.Utf8.encode "<?xml-stylesheet encoding=\"latin1\"?><é/>".toList

/-- The target `xml-stylesheet` is taken for the start of a declaration. -/
theorem instruction_declares_latin1 :
    (∀ c, Xml.isSpace c → ¬ascii "<?xml" ++ Text.Utf8.encode [c] <+: unmarked styledFile) ∧
      declared? styledFile = some "latin1" ∧
      Text.Utf8.decode styledFile = .ok "<?xml-stylesheet encoding=\"latin1\"?><é/>".toList ∧
      decode styledFile = .ok "<?xml-stylesheet encoding=\"latin1\"?><Ã©/>".toList := by
  refine ⟨?_, ?_, ?_, ?_⟩
  · intro c space
    rcases Xml.isSpace_iff.mp space with rfl | rfl | rfl | rfl <;> decide
  · decide +kernel
  · exact Text.Utf8.decode_encode _
  · decide +kernel

end StumpCompiler.Encoding
