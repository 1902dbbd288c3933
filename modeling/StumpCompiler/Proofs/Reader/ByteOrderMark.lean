import StumpCompiler.Proofs.Reader.Encodings
import StumpCompiler.Proofs.Reader.Grammar
import StumpCompiler.Proofs.Xml.Front

/-! A byte order mark in front of a model file changes nothing, unless the file declares ISO-8859-1.
The mark is passed over where the declaration is looked for, but not where such a file is decoded:
it becomes three characters in front of the root. -/

namespace StumpCompiler

namespace Encoding

variable {bytes : List UInt8}

/-- The file declares one of the names of ISO-8859-1. -/
def DeclaresLatin1 (bytes : List UInt8) : Prop :=
  ∃ label, declared? bytes = some label ∧ NamesLatin1 label

theorem unmarked_eq (unmarked_bytes : ¬byteOrderMark <+: bytes) : unmarked bytes = bytes := by
  rw [unmarked, if_neg (by simpa using unmarked_bytes)]

theorem declared?_mark (unmarked_bytes : ¬byteOrderMark <+: bytes) :
    declared? (byteOrderMark ++ bytes) = declared? bytes := by
  apply Option.ext
  intro label
  rw [declared?_eq_some_iff, declared?_eq_some_iff, unmarked_mark, unmarked_eq unmarked_bytes]

theorem declaresLatin1_mark (unmarked_bytes : ¬byteOrderMark <+: bytes) :
    DeclaresLatin1 (byteOrderMark ++ bytes) ↔ DeclaresLatin1 bytes := by
  rw [DeclaresLatin1, DeclaresLatin1, declared?_mark unmarked_bytes]

theorem decode_of_declaresLatin1 (latin1 : DeclaresLatin1 bytes) :
    decode bytes = .ok (decodeLatin1 bytes) := by
  obtain ⟨label, declared, named⟩ := latin1
  exact decode_of_namesLatin1 declared named

theorem decode_of_not_declaresLatin1 (other : ¬DeclaresLatin1 bytes) :
    decode bytes = (Text.Utf8.decode bytes).mapError .notUtf8 :=
  decode_of_not_namesLatin1 fun label declared named => other ⟨label, declared, named⟩

end Encoding

namespace Reader

open Encoding (byteOrderMark DeclaresLatin1)
open Generation (readModel)

variable {bytes : List UInt8}

theorem byteOrderMark_eq : byteOrderMark = Text.Utf8.encode ['\uFEFF'] := by
  decide

theorem head?_of_not_marked {cs : List Char} (unmarked : ¬byteOrderMark <+: Text.Utf8.encode cs) :
    cs.head? ≠ some '\uFEFF' := by
  intro marked
  obtain ⟨cs, rfl⟩ := List.head?_eq_some_iff.mp marked
  refine unmarked ?_
  rw [byteOrderMark_eq]
  exact List.prefix_append _ _

/-- The same bytes are no text with a mark and without, or the same document is read. -/
theorem ofBytes_mark (unmarked : ¬byteOrderMark <+: bytes) (other : ¬DeclaresLatin1 bytes) :
    (∃ fault fault', ofBytes bytes = .error (.io (.notUtf8 fault)) ∧
      ofBytes (byteOrderMark ++ bytes) = .error (.io (.notUtf8 fault'))) ∨
    SameReading (ofBytes bytes) (ofBytes (byteOrderMark ++ bytes)) := by
  have other_marked := mt (Encoding.declaresLatin1_mark unmarked).mp other
  rw [ofBytes, ofBytes, Encoding.decode_of_not_declaresLatin1 other,
    Encoding.decode_of_not_declaresLatin1 other_marked, byteOrderMark_eq,
    Text.Utf8.decode_encode_append]
  cases decoded : Text.Utf8.decode bytes with
  | error fault => exact .inl ⟨_, _, rfl, rfl⟩
  | ok cs =>
    obtain rfl := Text.Utf8.decode_eq_ok_iff.mp decoded
    exact .inr (sameReading_of_alike (Xml.alike_parse_mark (head?_of_not_marked unmarked)).symm)

/-- The mark is three characters in ISO-8859-1, the first of which is no markup. -/
theorem ofBytes_mark_latin1 (unmarked : ¬byteOrderMark <+: bytes) (latin1 : DeclaresLatin1 bytes) :
    ofBytes (byteOrderMark ++ bytes) = .error (.malformed (.unknownToken .start)) := by
  have marked := (Encoding.declaresLatin1_mark unmarked).mpr latin1
  have text : Encoding.decodeLatin1 (byteOrderMark ++ bytes) =
      'ï' :: '»' :: '¿' :: Encoding.decodeLatin1 bytes := rfl
  rw [ofBytes, Encoding.decode_of_declaresLatin1 marked, text]
  have refused : Xml.parse ('ï' :: '»' :: '¿' :: Encoding.decodeLatin1 bytes) = _ :=
    Xml.parse_eq_unknownToken (by decide) (by decide) (by decide)
  simp only [Except.mapError, bind, Except.bind, ofText, refused]

/-- A byte order mark in front of a file leaves its model, or its failure, as it is, unless the file
declares ISO-8859-1. With such a declaration the marked file is malformed, whatever follows. -/
theorem readModel_mark (unmarked : ¬byteOrderMark <+: bytes) {w w' : Workspace}
    {path path' : String} (plain : w.store.read path = .ok bytes)
    (marked : w'.store.read path' = .ok (byteOrderMark ++ bytes)) :
    (∀ m, ((readModel path' : Run Model) w').1 = .ok m ↔
      ((readModel path : Run Model) w).1 = .ok m ∧ ¬DeclaresLatin1 bytes) ∧
    (¬DeclaresLatin1 bytes → ∀ f, ((readModel path : Run Model) w).1 = .error f →
      ∃ f', ((readModel path' : Run Model) w').1 = .error f' ∧ f'.category = f.category) ∧
    (DeclaresLatin1 bytes → ((readModel path' : Run Model) w').1 =
      .error (.malformed (.unknownToken .start))) := by
  simp only [Generation.readModel_eq, plain, marked]
  by_cases latin1 : DeclaresLatin1 bytes
  · rw [ofBytes_mark_latin1 unmarked latin1]
    exact ⟨fun m => ⟨fun h => (by contradiction), fun h => absurd latin1 h.2⟩,
      fun other => absurd latin1 other, fun _ => rfl⟩
  · obtain ⟨fault, fault', failed, failed'⟩ | same := ofBytes_mark unmarked latin1
    · rw [failed, failed']
      refine ⟨by simp, fun _ f failed => ?_, fun h => absurd h latin1⟩
      obtain rfl := Except.error.inj failed
      exact ⟨_, rfl, rfl⟩
    · generalize ofBytes bytes = x at same ⊢
      generalize ofBytes (byteOrderMark ++ bytes) = y at same ⊢
      refine ⟨fun m => ?_, fun _ f failed => ?_, fun h => absurd h latin1⟩
      · cases same <;> simp [latin1]
      · cases same with
        | same => exact ⟨f, failed, rfl⟩
        | malformed cause cause' =>
          obtain rfl := Except.error.inj failed
          exact ⟨_, rfl, rfl⟩

/-- The small document behind a declaration. -/
def declaredFile (label : String) : List UInt8 :=
  Text.Utf8.encode (declaring label smallDocument.toList)

/-- The file as it is, and with a byte order mark in front. -/
def markedWorkspace (label : String) : Workspace :=
  ⟨(Store.initial.put ["work", "plain.xml"] (.file (declaredFile label))).put
    ["work", "marked.xml"] (.file (byteOrderMark ++ declaredFile label)), []⟩

theorem readModel_mark_utf8 :
    ¬byteOrderMark <+: declaredFile "UTF-8" ∧
    (markedWorkspace "UTF-8").store.read "plain.xml" = .ok (declaredFile "UTF-8") ∧
    (markedWorkspace "UTF-8").store.read "marked.xml" =
      .ok (byteOrderMark ++ declaredFile "UTF-8") ∧
    ¬DeclaresLatin1 (declaredFile "UTF-8") ∧
    ((readModel "plain.xml" : Run Model) (markedWorkspace "UTF-8")).1 = .ok smallModel ∧
    ((readModel "marked.xml" : Run Model) (markedWorkspace "UTF-8")).1 = .ok smallModel := by
  have unmarked : ¬byteOrderMark <+: declaredFile "UTF-8" := by decide +kernel
  have declared : Encoding.declared? (declaredFile "UTF-8") = some "UTF-8" := by decide +kernel
  have other : ¬DeclaresLatin1 (declaredFile "UTF-8") := by
    rintro ⟨label, named, latin1⟩
    obtain rfl := Option.some.inj (declared.symm.trans named)
    rw [Encoding.NamesLatin1] at latin1
    exact absurd latin1 (by decide)
  have plain : (markedWorkspace "UTF-8").store.read "plain.xml" = .ok (declaredFile "UTF-8") := rfl
  have marked : (markedWorkspace "UTF-8").store.read "marked.xml" =
      .ok (byteOrderMark ++ declaredFile "UTF-8") := rfl
  have read : ((readModel "plain.xml" : Run Model) (markedWorkspace "UTF-8")).1 =
      .ok smallModel := by decide +kernel
  exact ⟨unmarked, plain, marked, other, read,
    ((readModel_mark unmarked plain marked).1 smallModel).mpr ⟨read, other⟩⟩

/-- A model file that declares ISO-8859-1 cannot be read any more with a mark in front. -/
theorem mark_spoils_latin1 :
    ¬byteOrderMark <+: declaredFile "latin1" ∧
    (markedWorkspace "latin1").store.read "plain.xml" = .ok (declaredFile "latin1") ∧
    (markedWorkspace "latin1").store.read "marked.xml" =
      .ok (byteOrderMark ++ declaredFile "latin1") ∧
    ((readModel "plain.xml" : Run Model) (markedWorkspace "latin1")).1 = .ok smallModel ∧
    ((readModel "marked.xml" : Run Model) (markedWorkspace "latin1")).1 =
      .error (.malformed (.unknownToken ⟨1, 1⟩)) := by
  have unmarked : ¬byteOrderMark <+: declaredFile "latin1" := by decide +kernel
  have declared : Encoding.declared? (declaredFile "latin1") = some "latin1" := by decide +kernel
  have latin1 : DeclaresLatin1 (declaredFile "latin1") := by
    refine ⟨_, declared, ?_⟩
    rw [Encoding.NamesLatin1]
    decide
  have marked : (markedWorkspace "latin1").store.read "marked.xml" =
      .ok (byteOrderMark ++ declaredFile "latin1") := rfl
  have refused := ofBytes_mark_latin1 unmarked latin1
  refine ⟨unmarked, rfl, marked, by decide +kernel, ?_⟩
  rw [Generation.readModel_eq, marked]
  exact refused

end Reader

end StumpCompiler
