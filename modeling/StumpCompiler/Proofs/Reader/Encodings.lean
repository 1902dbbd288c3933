import StumpCompiler.Proofs.Encoding
import StumpCompiler.Proofs.Workspace
import StumpCompiler.Proofs.Xml.Alike.Document

/-! A document is read the same from a file in ISO-8859-1 and from one in UTF-8. -/

namespace StumpCompiler.Reader

open Encoding (NamesLatin1 latin1Bytes)
open Xml (XmlDeclaration IsEncodingName)

/-- A document that starts by declaring an encoding. -/
def declaring (label : String) (body : List Char) : List Char :=
  ("<?xml version=\"1.0\" encoding=\"" ++ label ++ "\"?>").toList ++ body

theorem declaring_eq (label : String) (body : List Char) :
    declaring label body = (XmlDeclaration.short (some label)).text ++ body := by
  have front : "<?xml version=\"1.0\" encoding=\"".toList = "<?xml".toList ++ ([' '] ++
      (Xml.quoted "version" "1.0" ++ ' ' :: ("encoding".toList ++ ['=', '"']))) := by decide
  have last : "\"?>".toList = '"' :: "?>".toList := by decide
  unfold declaring
  rw [Xml.text_short, String.toList_append, String.toList_append, front, last, Option.elim_some]
  unfold Xml.quoted
  simp only [List.append_assoc, List.cons_append, List.nil_append]

variable {label : String} {body : List Char}

theorem ofBytes_latin1Bytes (latin1 : NamesLatin1 label) (small : ∀ c ∈ body, c.toNat ≤ 0xFF) :
    ofBytes (latin1Bytes (declaring label body)) = ofText (declaring label body) := by
  rw [ofBytes, declaring_eq, Encoding.decode_latin1Bytes latin1 small]
  rfl

theorem isEncodingName_utf8 : IsEncodingName "UTF-8".toList :=
  ⟨'U', "TF-8".toList, rfl, by simp, by simp⟩

theorem ofBytes_encode (body : List Char) :
    ofBytes (Text.Utf8.encode (declaring "UTF-8" body)) = ofText (declaring "UTF-8" body) := by
  have other : ¬NamesLatin1 "UTF-8" := by
    rw [NamesLatin1]
    decide
  rw [ofBytes, declaring_eq, Encoding.decode_encode (by simpa using isEncodingName_utf8)
    (by simpa using other)]
  rfl

/-- Two attempts at a model come to the same, but for where a document is malformed. -/
inductive SameReading : Except Fault Model → Except Fault Model → Prop
  | same (x : Except Fault Model) : SameReading x x
  | malformed (cause cause' : Xml.Error) :
    SameReading (.error (.malformed cause)) (.error (.malformed cause'))

theorem sameReading_of_alike {cs ds : List Char}
    (trees : Text.Alike (· = ·) (Xml.parse cs) (Xml.parse ds)) :
    SameReading (ofText cs) (ofText ds) := by
  unfold ofText
  generalize Xml.parse cs = x at trees ⊢
  generalize Xml.parse ds = y at trees ⊢
  cases trees with
  | ok same => exact same ▸ .same _
  | error e e' => exact .malformed e e'

theorem sameReading_ofText (named : IsEncodingName label.toList) (body : List Char) :
    SameReading (ofText (declaring label body)) (ofText (declaring "UTF-8" body)) := by
  have declared : ∀ n ∈ some label, IsEncodingName n.toList := by simpa using named
  have declared_utf8 : ∀ n ∈ some "UTF-8", IsEncodingName n.toList := by
    simpa using isEncodingName_utf8
  have trees := Xml.alike_parse_short declared declared_utf8 body
  rw [← declaring_eq, ← declaring_eq] at trees
  exact sameReading_of_alike trees

/-- Of a document in ISO-8859-1 and the same document in UTF-8, both are read as the same model, or
both fail, with faults of one category. They are the same fault unless the document is malformed. -/
theorem readModel_latin1_utf8 (latin1 : NamesLatin1 label) (small : ∀ c ∈ body, c.toNat ≤ 0xFF)
    {w w' : Workspace} {path path' : String}
    (in_latin1 : w.store.read path = .ok (latin1Bytes (declaring label body)))
    (in_utf8 : w'.store.read path' = .ok (Text.Utf8.encode (declaring "UTF-8" body))) :
    (∃ m, ((Generation.readModel path : Run Model) w).1 = .ok m ∧
      ((Generation.readModel path' : Run Model) w').1 = .ok m) ∨
    ∃ f f', ((Generation.readModel path : Run Model) w).1 = .error f ∧
      ((Generation.readModel path' : Run Model) w').1 = .error f' ∧
      f.category = f'.category ∧ (f = f' ∨ f.category = "parse") := by
  have same := sameReading_ofText latin1.isEncodingName body
  rw [← ofBytes_latin1Bytes latin1 small, ← ofBytes_encode] at same
  simp only [Generation.readModel_eq, in_latin1, in_utf8]
  generalize ofBytes _ = x at same ⊢
  generalize ofBytes _ = y at same ⊢
  cases same with
  | malformed cause cause' => exact .inr ⟨_, _, rfl, rfl, rfl, .inr rfl⟩
  | same =>
    cases x with
    | ok m => exact .inl ⟨m, rfl, rfl⟩
    | error f => exact .inr ⟨f, f, rfl, rfl, rfl, .inl rfl⟩

/-- A document in ISO-8859-1, and the same in UTF-8. -/
def accentedBody : List Char :=
  ("<m><weakhyp><alpha>1</alpha><threshold>0</threshold><column>TopPosition</column>" ++
    "<class id=\"é\">1</class></weakhyp></m>").toList

def accentedWorkspace : Workspace :=
  ⟨(Store.initial.put ["work", "latin1.xml"] (.file (latin1Bytes
      (declaring "ISO-8859-1" accentedBody)))).put ["work", "utf8.xml"]
        (.file (Text.Utf8.encode (declaring "UTF-8" accentedBody))), []⟩

theorem readModel_latin1_utf8_accented :
    NamesLatin1 "ISO-8859-1" ∧ (∀ c ∈ accentedBody, c.toNat ≤ 0xFF) ∧
    accentedWorkspace.store.read "latin1.xml" =
      .ok (latin1Bytes (declaring "ISO-8859-1" accentedBody)) ∧
    accentedWorkspace.store.read "utf8.xml" =
      .ok (Text.Utf8.encode (declaring "UTF-8" accentedBody)) ∧
    ((∃ m, ((Generation.readModel "latin1.xml" : Run Model) accentedWorkspace).1 = .ok m ∧
      ((Generation.readModel "utf8.xml" : Run Model) accentedWorkspace).1 = .ok m) ∨
    ∃ f f', ((Generation.readModel "latin1.xml" : Run Model) accentedWorkspace).1 = .error f ∧
      ((Generation.readModel "utf8.xml" : Run Model) accentedWorkspace).1 = .error f' ∧
      f.category = f'.category ∧ (f = f' ∨ f.category = "parse")) := by
  have latin1 : NamesLatin1 "ISO-8859-1" := by
    rw [NamesLatin1]
    decide
  have small : ∀ c ∈ accentedBody, c.toNat ≤ 0xFF := by
    have all : accentedBody.all (·.toNat ≤ 0xFF) := by decide +kernel
    simpa using List.all_eq_true.mp all
  exact ⟨latin1, small, rfl, rfl, readModel_latin1_utf8 latin1 small rfl rfl⟩

end StumpCompiler.Reader
