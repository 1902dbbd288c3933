import StumpCompiler.Proofs.Text.Alike
import StumpCompiler.Xml.Doctype

/-! Markup is read alike wherever it stands. -/

namespace StumpCompiler.Xml

open Text (Scan Position Cursor Alike)
open Text.Scan (Placeless)

theorem placeless_expect (w : Char) : Placeless (expect w) := by
  refine .here_bind fun cs place place' => ?_
  cases cs with
  | nil => exact .fail _ _
  | cons c cs => exact .ite (fun _ => .skip 1) fun _ => .fail _ _

theorem placeless_expectText (word : String) : Placeless (expectText word) := by
  refine .position_bind fun place place' => ?_
  refine (Scan.Alike.accept word).bind_eq fun found => ?_
  exact .ite (fun _ => .pure rfl) fun _ => .fail _ _

theorem placeless_spaces : Placeless spaces :=
  (Scan.Alike.takeWhile isSpace).bind_eq fun _ => .pure rfl

theorem placeless_someSpaces : Placeless someSpaces := by
  refine .here_bind fun cs place place' => ?_
  cases cs with
  | nil => exact .fail _ _
  | cons c cs => exact .ite (fun _ => placeless_spaces) fun _ => .fail _ _

theorem placeless_quote : Placeless quote := by
  refine .here_bind fun cs place place' => ?_
  cases cs with
  | nil => exact .fail _ _
  | cons c cs =>
    exact .ite (fun _ => (Scan.Alike.skip 1).bind_eq fun _ => .pure rfl) fun _ => .fail _ _

theorem placeless_equalsSign : Placeless equalsSign :=
  placeless_spaces.bind_eq fun _ => (placeless_expect '=').bind_eq fun _ => placeless_spaces

theorem isSome_firstForbidden (p p' : Position) (cs : List Char) :
    (firstForbidden p cs).isSome = (firstForbidden p' cs).isSome := by
  induction cs generalizing p p' with
  | nil => rfl
  | cons c cs ih =>
    rw [firstForbidden, firstForbidden]
    split
    · exact ih _ _
    · rfl

theorem alike_allowed (p p' : Position) (cs : List Char) :
    Alike (· = ·) (allowed p cs) (allowed p' cs) := by
  have same := isSome_firstForbidden p p' cs
  unfold allowed
  cases one : firstForbidden p cs <;> cases other : firstForbidden p' cs
  · exact .ok rfl
  · simp [one, other] at same
  · simp [one, other] at same
  · exact .error _ _

theorem placeless_charsUpTo (stop : List Char → Bool) : Placeless (charsUpTo stop) := by
  refine .position_bind fun place place' => ?_
  refine (Scan.Alike.upTo stop).bind_eq fun cs => ?_
  exact (Scan.Alike.lift (alike_allowed place place' cs)).bind_eq fun _ => .pure rfl

theorem placeless_plainName : Placeless plainName := by
  refine .position_bind fun place place' => ?_
  refine Scan.Alike.peek.bind_eq fun first => ?_
  cases first with
  | none => exact .fail _ _
  | some c => exact .ite (fun _ => .takeWhile isNameChar) fun _ => .fail _ _

theorem placeless_skipName : Placeless skipName := by
  refine Scan.Alike.peek.bind_eq fun first => ?_
  exact .ite (fun _ => placeless_plainName.bind_eq fun _ => .pure rfl) fun _ => .pure rfl

theorem placeless_qualifiedName : Placeless qualifiedName := by
  refine .position_bind fun place place' => ?_
  refine (Scan.Alike.takeWhile isNameChar).bind_eq fun cs => ?_
  cases Name.ofChars? cs with
  | none => exact .fail _ _
  | some name => exact .pure rfl

/-- The attributes are written alike. -/
structure RawAttribute.Alike (a a' : RawAttribute) : Prop where
  name : a.name = a'.name
  value : a.value = a'.value

theorem alike_rawAttribute : Scan.Alike RawAttribute.Alike rawAttribute rawAttribute := by
  refine .position_bind fun place place' => ?_
  refine placeless_qualifiedName.bind_eq fun name => ?_
  refine placeless_equalsSign.bind_eq fun _ => ?_
  refine placeless_quote.bind_eq fun q => ?_
  refine .position_bind fun place place' => ?_
  refine (placeless_charsUpTo _).bind_eq fun value => ?_
  exact (placeless_expect q).bind_eq fun _ => .pure ⟨rfl, rfl⟩

theorem placeless_declarationSpace : Placeless declarationSpace := by
  refine .here_bind fun cs place place' => ?_
  cases cs with
  | nil => exact .pure rfl
  | cons c cs =>
    exact .ite (fun _ => placeless_spaces) fun _ => .ite (fun _ => .pure rfl) fun _ => .fail _ _

theorem placeless_declaration : Placeless declaration := by
  have ends : Placeless (spaces >>= fun _ => expectText "?>") :=
    placeless_spaces.bind_eq fun _ => placeless_expectText "?>"
  have standalone : Placeless (Scan.sees "standalone" >>= fun found =>
      if found then rawAttribute >>= fun _ => spaces >>= fun _ => expectText "?>"
      else spaces >>= fun _ => expectText "?>") := by
    refine (Scan.Alike.sees _).bind_eq fun found => ?_
    exact .ite (fun _ => alike_rawAttribute.bind fun _ _ _ => ends) fun _ => ends
  refine (Scan.Alike.skip 5).bind_eq fun _ => ?_
  refine placeless_declarationSpace.bind_eq fun _ => .position_bind fun place place' => ?_
  refine (Scan.Alike.sees _).bind_eq fun version => .guard fun _ => ?_
  refine alike_rawAttribute.bind fun _ _ _ => ?_
  refine placeless_declarationSpace.bind_eq fun _ => ?_
  refine (Scan.Alike.sees _).bind_eq fun encoding => .ite (fun _ => ?_) fun _ => standalone
  refine alike_rawAttribute.bind fun _ _ _ => ?_
  exact placeless_declarationSpace.bind_eq fun _ => standalone

theorem alike_comment (start start' : Position) :
    Scan.Alike (· = ·) (comment start) (comment start') := by
  refine (Scan.Alike.skip 3).bind_eq fun _ => ?_
  refine (placeless_charsUpTo _).bind_eq fun cs => ?_
  refine (placeless_expectText "-->").bind_eq fun _ => ?_
  exact .guard fun _ => .pure rfl

theorem alike_instruction (start start' : Position) :
    Scan.Alike (· = ·) (instruction start) (instruction start') := by
  refine (Scan.Alike.sees _).bind_eq fun found => ?_
  refine .guard fun _ => ?_
  refine (Scan.Alike.skip 1).bind_eq fun _ => ?_
  refine placeless_plainName.bind_eq fun target => ?_
  refine placeless_spaces.bind_eq fun _ => ?_
  refine (placeless_charsUpTo _).bind_eq fun cs => ?_
  exact (placeless_expectText "?>").bind_eq fun _ => .pure rfl

theorem placeless_miscellany (read : List Node) : Placeless (miscellany read) := by
  refine .loop (fun s t same cs place place' => ?_) rfl
  subst same
  refine Text.rel_ite (fun _ => .some ?_) fun _ => Text.rel_ite (fun _ => .some ?_) fun _ =>
    Text.rel_ite (fun _ => .some ?_) fun _ => .none
  · exact placeless_spaces.bind_eq fun _ => .pure rfl
  · exact (alike_comment place place').bind_eq fun _ => .pure rfl
  · exact (alike_instruction place place').bind_eq fun _ => .pure rfl

/-! The document type declaration. -/

theorem alike_literal : Scan.Alike (fun c d => c.rest = d.rest) literal literal := by
  refine placeless_quote.bind_eq fun q => ?_
  refine .position_bind fun place place' => ?_
  refine (Scan.Alike.upTo _).bind_eq fun cs => ?_
  exact (placeless_expect q).bind_eq fun _ => .pure rfl

theorem placeless_externalId : Placeless externalId := by
  refine (Scan.Alike.accept _).bind_eq fun found => .ite (fun _ => ?_) fun _ => ?_
  · refine placeless_someSpaces.bind_eq fun _ => ?_
    exact alike_literal.bind fun _ _ _ => .pure rfl
  · refine (Scan.Alike.accept _).bind_eq fun found => .ite (fun _ => ?_) fun _ => .pure rfl
    refine placeless_someSpaces.bind_eq fun _ => ?_
    refine alike_literal.bind fun _ _ _ => ?_
    refine placeless_someSpaces.bind_eq fun _ => ?_
    exact alike_literal.bind fun _ _ _ => .pure rfl

theorem alike_entityDefinition (parameter : Bool) :
    Scan.Alike (Option.Rel fun c d => c.rest = d.rest) (entityDefinition parameter)
      (entityDefinition parameter) := by
  refine .here_bind fun cs place place' => ?_
  cases cs with
  | nil => exact .fail _ _
  | cons c cs =>
    refine .ite (fun _ => ?_) fun _ => .ite (fun _ => ?_) fun _ => .fail _ _
    · exact alike_literal.bind fun _ _ same => .pure (.some same)
    · refine placeless_externalId.bind_eq fun found => .guard fun _ => ?_
      refine .ite (fun _ => ?_) fun _ => .pure .none
      refine placeless_spaces.bind_eq fun _ => ?_
      refine (Scan.Alike.accept _).bind_eq fun data => .ite (fun _ => ?_) fun _ => .pure .none
      exact placeless_someSpaces.bind_eq fun _ => placeless_skipName.bind_eq fun _ => .pure .none

/-- The same names stand for the same texts. -/
def Entities.Alike (es es' : Entities) : Prop :=
  List.Forall₂ (fun e e' => e.1 = e'.1 ∧ e.2.rest = e'.2.rest) es es'

theorem alike_entityDeclaration :
    Scan.Alike Entities.Alike entityDeclaration entityDeclaration := by
  refine (Scan.Alike.skip 7).bind_eq fun _ => ?_
  refine placeless_someSpaces.bind_eq fun _ => ?_
  refine (Scan.Alike.accept "%").bind_eq fun parameter => .ite_bind placeless_someSpaces ?_
  refine placeless_plainName.bind_eq fun name => ?_
  refine placeless_someSpaces.bind_eq fun _ => ?_
  refine (alike_entityDefinition parameter).bind fun value value' same => ?_
  refine placeless_spaces.bind_eq fun _ => ?_
  refine (placeless_expect '>').bind_eq fun _ => .pure ?_
  cases same with
  | none => exact .nil
  | some same => exact .cons ⟨rfl, same⟩ .nil

theorem alike_otherDeclaration (place place' : Position) :
    Scan.Alike (· = ·) (otherDeclaration place) (otherDeclaration place') := by
  refine (Scan.Alike.upTo _).bind_eq fun _ => ?_
  refine (Scan.Alike.accept ">").bind_eq fun found => ?_
  exact .ite (fun _ => .fail _ _) fun _ => .pure rfl

theorem placeless_subsetEnd : Placeless subsetEnd := by
  refine placeless_spaces.bind_eq fun _ => .here_bind fun cs place place' => ?_
  cases cs with
  | nil => exact .fail _ _
  | cons c cs => exact .ite (fun _ => .skip 1) fun _ => .fail _ _

structure Subset.Alike (s s' : Subset) : Prop where
  entities : s.entities.Alike s'.entities
  closed : s.closed = s'.closed

theorem alike_subset (place place' : Position) :
    Scan.Alike Subset.Alike (subset place) (subset place') := by
  refine .loop (fun s t same cs here here' => ?_) ⟨.nil, rfl⟩
  obtain ⟨es, closed⟩ := s
  obtain ⟨es', closed'⟩ := t
  obtain ⟨entities, rfl⟩ : es.Alike es' ∧ closed = closed' := ⟨same.entities, same.closed⟩
  refine Text.rel_ite (fun _ => .none) fun _ => Text.rel_ite (fun _ => .some ?_) fun _ =>
    Text.rel_ite (fun _ => .some ?_) fun _ => Text.rel_ite (fun _ => .some ?_) fun _ =>
    Text.rel_ite (fun _ => .some ?_) fun _ => Text.rel_ite (fun _ => .some ?_) fun _ =>
    Text.rel_ite (fun _ => .some ?_) fun _ => .some ?_
  · refine placeless_spaces.bind_eq fun _ => .position_bind fun _ _ => ?_
    refine Scan.Alike.peek.bind_eq fun next => ?_
    exact .guard fun _ => .pure ⟨entities, rfl⟩
  · exact alike_entityDeclaration.bind fun _ _ more => .pure ⟨List.rel_append entities more, rfl⟩
  · exact (alike_comment here here').bind_eq fun _ => .pure ⟨entities, rfl⟩
  · exact (alike_instruction here here').bind_eq fun _ => .pure ⟨entities, rfl⟩
  · exact placeless_subsetEnd.bind_eq fun _ => .pure ⟨entities, rfl⟩
  · exact (alike_otherDeclaration place place').bind_eq fun _ => .pure ⟨entities, rfl⟩
  · exact .fail _ _

theorem alike_doctype : Scan.Alike Entities.Alike doctype doctype := by
  refine .position_bind fun place place' => ?_
  refine (Scan.Alike.skip 9).bind_eq fun _ => ?_
  refine placeless_someSpaces.bind_eq fun _ => ?_
  refine placeless_skipName.bind_eq fun _ => ?_
  refine placeless_spaces.bind_eq fun _ => ?_
  refine placeless_externalId.bind_eq fun _ => ?_
  refine placeless_spaces.bind_eq fun _ => .here_bind fun cs here here' => ?_
  cases cs with
  | nil => exact .fail _ _
  | cons c cs =>
    refine .ite (fun _ => ?_) fun _ => .ite (fun _ => ?_) fun _ => .fail _ _
    · exact (Scan.Alike.skip 1).bind_eq fun _ => .pure .nil
    · refine (Scan.Alike.skip 1).bind_eq fun _ => ?_
      exact (alike_subset place place').bind fun _ _ same => .pure same.entities

end StumpCompiler.Xml
