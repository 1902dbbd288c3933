import StumpCompiler.Proofs.Xml.Content
import StumpCompiler.Proofs.Xml.Declaration
import StumpCompiler.Xml.Document

/-! The shortest declarations are read to their ends. A document that consists of the one without
an encoding, a line end, a plain root and a line end is read as that root. -/

namespace StumpCompiler.Xml

open Text (Scan Position)

variable {rest : List Char} {b : Builder} {name : String} {as : List Attribute} {ns : List Node}

/-! The declaration and what may stand around the root. -/

theorem reads_declarationSpace (ends : "?>".toList.isPrefixOf rest) :
    declarationSpace.Reads [] rest fun _ => True := by
  obtain ⟨cs, rfl⟩ := List.isPrefixOf_iff_prefix.mp ends
  exact .here fun place => .pure trivial

theorem reads_declarationSpace_blank (stops : ∀ c ∈ rest.head?, isSpace c = false) :
    declarationSpace.Reads [' '] rest fun _ => True :=
  .here fun _ => reads_spaces (by simp; decide) stops

theorem text_short (name : Option String) :
    (XmlDeclaration.short name).text = "<?xml".toList ++ ([' '] ++ (quoted "version" "1.0" ++
      name.elim "?>".toList fun n => [' '] ++ (quoted "encoding" n ++ "?>".toList))) := by
  unfold XmlDeclaration.text XmlDeclaration.body quoted XmlDeclaration.short DeclarationPart.text
  cases name <;> simp only [Option.map_none, Option.map_some, Option.elim_none, Option.elim_some,
    List.append_assoc, List.cons_append, List.nil_append, List.append_nil]

theorem reads_declarationEnd :
    (spaces >>= fun _ => expectText "?>").Reads "?>".toList rest fun _ => True :=
  .bind_nothing (reads_spaces (by simp) (by simp; decide)) fun _ _ => reads_expectText "?>"

theorem reads_declaration {name : Option String} (named : ∀ n ∈ name, IsEncodingName n.toList) :
    declaration.Reads (XmlDeclaration.short name).text rest fun _ => True := by
  rw [text_short]
  refine .bind (.skip rfl) fun _ _ => ?_
  refine .bind (reads_declarationSpace_blank (by simp [quoted]; decide)) fun _ _ => ?_
  refine .position fun place => .sees ?_
  have version : IsPlainName "version" := .of_all rfl (by decide)
  refine .bind (reads_rawAttribute version (List.all_eq_true.mp (by decide))) fun _ _ => ?_
  cases name with
  | none =>
    refine .bind_nothing (reads_declarationSpace rfl) fun _ _ => .sees (.sees ?_)
    exact reads_declarationEnd
  | some n =>
    have encoding : IsPlainName "encoding" := .of_all rfl (by decide)
    refine .bind (reads_declarationSpace_blank (by simp [quoted]; decide)) fun _ _ => .sees ?_
    refine .bind (reads_rawAttribute encoding (named n rfl).isValueChar) fun _ _ => ?_
    refine .bind_nothing (reads_declarationSpace rfl) fun _ _ => .sees ?_
    exact reads_declarationEnd

/-- A start tag follows. -/
def IsTagAhead (cs : List Char) : Prop :=
  ∃ c ds, cs = '<' :: c :: ds ∧ isNameChar c

theorem IsTagAhead.append {cs : List Char} (h : IsTagAhead cs) (ds : List Char) :
    IsTagAhead (cs ++ ds) := by
  obtain ⟨c, es, rfl, name_char⟩ := h
  exact ⟨c, es ++ ds, rfl, name_char⟩

theorem isPrefixOf_eq_false {cs : List Char} (tag : IsTagAhead cs) {w : Char}
    (other : isNameChar w = false) (ws : List Char) :
    ('<' :: w :: ws).isPrefixOf cs = false := by
  obtain ⟨c, ds, rfl, name_char⟩ := tag
  have ne : w ≠ c := (ne_of_class name_char other).symm
  simp [List.isPrefixOf, ne]

theorem reads_miscellany {text : List Char} (blank : text = [] ∨ text = ['\n'])
    (stops : rest = [] ∨ IsTagAhead rest) (read : List Node) :
    (miscellany read).Reads text rest (· = read) := by
  have bracket : isSpace '<' = false := by decide
  have done : (miscellany read).Reads [] rest (· = read) := by
    rcases stops with rfl | tag
    · exact .loop_end rfl
    · refine .loop_stop (fun place => ?_) rfl
      have comments : "<!--".toList.isPrefixOf rest = false :=
        isPrefixOf_eq_false tag (by decide) _
      have instructions : "<?".toList.isPrefixOf rest = false :=
        isPrefixOf_eq_false tag (by decide) _
      obtain ⟨c, ds, rfl, -⟩ := tag
      simp only [List.head?_cons, Option.any_some, bracket, Text.Cursor.sees, comments,
        instructions]
      rfl
  rcases blank with rfl | rfl
  · exact done
  · have round : (miscellany read).Reads ('\n' :: [] ++ []) rest (· = read) := by
      refine .loop_step_eq (fun place => ⟨_, if_pos (by simp; decide), ?_⟩) done
      refine .bind_all (reads_spaces (by simp) ?_) fun _ _ => .pure rfl
      rcases stops with rfl | ⟨c, ds, rfl, -⟩
      · simp
      · simpa using bracket
    exact round

/-- Nothing is read between the declaration and the root. -/
theorem reads_prologEnd {text : List Char} (blank : text = [] ∨ text = ['\n'])
    (tag : IsTagAhead rest) :
    (do
      let read ← miscellany []
      spaces
      let entities ← if ← Scan.sees "<!DOCTYPE" then doctype else pure []
      let read ← miscellany read
      spaces
      return (read, entities)).Reads text rest (· = ([], [])) := by
  have no_doctype : "<!DOCTYPE".toList.isPrefixOf rest = false :=
    isPrefixOf_eq_false tag (by decide) _
  have spaces_end : spaces.Reads [] rest fun _ => True := by
    obtain ⟨c, ds, rfl, -⟩ := tag
    exact reads_spaces (by simp) (by simp; decide)
  refine .bind_all_eq (reads_miscellany blank (.inr tag) []) ?_
  refine .bind_nothing spaces_end fun _ _ => .sees ?_
  rw [List.nil_append, no_doctype]
  refine .bind_all_eq (.pure rfl) ?_
  refine .bind_all_eq (reads_miscellany (.inl rfl) (.inr tag) []) ?_
  exact .bind_nothing spaces_end fun _ _ => .pure rfl

theorem reads_prolog (tag : IsTagAhead rest) :
    prolog.Reads "<?xml version=\"1.0\"?>\n".toList rest (· = ([], [])) := by
  have parts : "<?xml version=\"1.0\"?>\n".toList =
      (XmlDeclaration.short none).text ++ ['\n'] := by decide
  have declared : "<?xml ".toList.isPrefixOf
      ((XmlDeclaration.short none).text ++ ['\n'] ++ rest) := rfl
  rw [parts]
  refine .bind_nothing (.not_accept rfl) fun _ _ => .sees ?_
  rw [if_pos declared]
  exact .bind (reads_declaration (by simp)) fun _ _ => reads_prologEnd (.inr rfl) tag

theorem reads_prolog_nil (tag : IsTagAhead rest) : prolog.Reads [] rest (· = ([], [])) := by
  have no_mark : "\uFEFF".toList.isPrefixOf rest = false := by
    obtain ⟨c, ds, rfl, -⟩ := tag
    rfl
  have undeclared : "<?xml ".toList.isPrefixOf rest = false :=
    isPrefixOf_eq_false tag (by decide) _
  refine .bind_nothing (.not_accept no_mark) fun _ _ => .sees ?_
  rw [List.nil_append, undeclared]
  exact reads_prologEnd (.inl rfl) tag

/-! The root. -/

theorem reads_contentAt (l : Level) (named : IsPlainName name) (children : NodesArePlain ns)
    (settled : b.pending = .empty) (begun : b.started) :
    (contentAt l (b.opened name as)).Reads
      (printAll ns ++ '<' :: '/' :: (name.toList ++ ['>'])) rest
      (· = b.put (.element ⟨"", name⟩ as ns)) := by
  have left : (Scan.loop (contentStep l) ⟨0, b.put (.element ⟨"", name⟩ as ns)⟩).Reads [] rest
      fun s => s.builder = b.put (.element ⟨"", name⟩ as ns) :=
    .loop_stop (fun _ => rfl) rfl
  have close := reads_close l named (Builder.close_opened name as ns settled begun) left
  have inside := reads_nodes l ns children (b := b.opened name as) rfl rfl (fun _ _ _ => rfl)
    (by simp) close
  exact .bind_all (.of_eq inside (by simp)) fun _ built => .pure built

theorem reads_root (entities : Entities) (plain : (Node.element ⟨"", name⟩ as ns).IsPlain)
    (settled : b.pending = .empty) :
    (root entities b).Reads (Node.element ⟨"", name⟩ as ns).print rest
      (· = { b with started := true }.put (.element ⟨"", name⟩ as ns)) := by
  obtain ⟨-, named, attributes, children⟩ := plain
  have parts : (Node.element ⟨"", name⟩ as ns).print =
      ['<'] ++ (name.toList ++ printTagRest as ++
        (printAll ns ++ '<' :: '/' :: (name.toList ++ ['>']))) := by
    simp [Node.print]
  rw [parts]
  refine .bind (.skip rfl) fun _ _ => ?_
  refine .bind_eq (reads_startTag _ named attributes settled) ?_
  exact reads_contentAt (b := { b with started := true }) _ named children settled rfl

theorem isTagAhead_print (named : IsPlainName name) :
    IsTagAhead (Node.element ⟨"", name⟩ as ns).print := by
  obtain ⟨c, cs, chars, name_char⟩ := named.exists_cons
  exact ⟨c, _, by simp only [Node.print, chars]; rfl, name_char⟩

/-- The root is what is read, if nothing is read of what stands in front of it, and nothing or a
line end stands behind it. -/
theorem parse_eq_ok_of_prolog {front back : List Char}
    (plain : (Node.element ⟨"", name⟩ as ns).IsPlain)
    (prologue : ∀ rest, IsTagAhead rest → prolog.Reads front rest (· = ([], [])))
    (blank : back = [] ∨ back = ['\n']) :
    parse (front ++ (Node.element ⟨"", name⟩ as ns).print ++ back) =
      .ok [.element ⟨"", name⟩ as ns] := by
  have reads : document.Reads (front ++ ((Node.element ⟨"", name⟩ as ns).print ++ back)) []
      (· = [.element ⟨"", name⟩ as ns]) := by
    refine .bind_eq (prologue _ (((isTagAhead_print plain.2.1).append _).append _)) ?_
    refine .peek ?_
    rw [if_pos (by simp [Node.print])]
    refine .bind_eq (reads_root [] plain rfl) ?_
    refine .bind_all_eq (reads_miscellany blank (.inl rfl) []) ?_
    exact .here fun place => .lift rfl rfl
  rw [List.append_assoc]
  exact Scan.Reads.map_fst reads

/-- A document of the shortest form is read as its root. -/
theorem parse_eq_ok (plain : (Node.element ⟨"", name⟩ as ns).IsPlain) :
    parse ("<?xml version=\"1.0\"?>\n".toList ++ (Node.element ⟨"", name⟩ as ns).print ++ ['\n']) =
      .ok [.element ⟨"", name⟩ as ns] :=
  parse_eq_ok_of_prolog plain (fun _ => reads_prolog) (.inr rfl)

/-- A root that stands alone is read as it is. -/
theorem parse_printAll (plain : NodesArePlain [.element ⟨"", name⟩ as ns]) :
    parse (printAll [.element ⟨"", name⟩ as ns]) = .ok [.element ⟨"", name⟩ as ns] :=
  parse_eq_ok_of_prolog plain.1 (fun _ => reads_prolog_nil) (.inl rfl)

end StumpCompiler.Xml
