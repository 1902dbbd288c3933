import StumpCompiler.Proofs.Xml.Alike.Content
import StumpCompiler.Proofs.Xml.Document

/-! The tree of a document does not depend on the encoding that its declaration gives, nor on a byte
order mark in front of it. -/

namespace StumpCompiler.Xml

open Text (Scan Position Alike)
open Text.Scan (Placeless AlikeOn)

theorem alike_root {es es' : Entities} (entities : es.Alike es') (b : Builder) :
    Scan.Alike Builder.Alike (root es b) (root es' b) := by
  have levels := alike_level entities nestingLimit
  refine (Scan.Alike.skip 1).bind_eq fun _ => ?_
  refine (alike_startTag levels (.refl b)).bind ?_
  rintro ⟨b, opens⟩ ⟨b', _⟩ ⟨same, rfl⟩
  exact .ite (fun _ => alike_contentAt levels same) fun _ => .pure same

/-- The nodes in front of the root are the same, and the names of entities stand for the same
texts. -/
def SameProlog (x y : List Node × Entities) : Prop :=
  x.1 = y.1 ∧ x.2.Alike y.2

/-- What stands between the XML declaration and the root. -/
theorem alike_prologEnd :
    Scan.Alike SameProlog
      (do
        let read ← miscellany []
        spaces
        let entities ← if ← Scan.sees "<!DOCTYPE" then doctype else pure []
        let read ← miscellany read
        spaces
        return (read, entities))
      (do
        let read ← miscellany []
        spaces
        let entities ← if ← Scan.sees "<!DOCTYPE" then doctype else pure []
        let read ← miscellany read
        spaces
        return (read, entities)) := by
  refine (placeless_miscellany []).bind_eq fun read => ?_
  refine placeless_spaces.bind_eq fun _ => ?_
  refine (Scan.Alike.sees _).bind_eq fun typed => ?_
  refine .choice_bind (fun _ => alike_doctype) (fun _ => .pure .nil) fun es es' entities => ?_
  refine (placeless_miscellany read).bind_eq fun read => ?_
  exact placeless_spaces.bind_eq fun _ => .pure ⟨rfl, entities⟩

variable {name name' : Option String} {cs ds : List Char}

theorem alikeOn_prolog_mark (unmarked : cs.head? ≠ some '\uFEFF') :
    AlikeOn SameProlog prolog prolog ('\uFEFF' :: cs) cs := by
  have absent : "\uFEFF".toList.isPrefixOf cs = false := by
    cases cs with
    | nil => rfl
    | cons c cs =>
      have other : c ≠ '\uFEFF' := by simpa using unmarked
      exact Text.isPrefixOf_of_ne other [] cs
  have marks : AlikeOn (fun _ _ => True) (Scan.accept "\uFEFF" : Scan Error Bool)
      (Scan.accept "\uFEFF") ('\uFEFF' :: cs) cs :=
    Scan.Reads.accept.alikeOn (Scan.Reads.not_accept absent) fun _ _ _ _ => trivial
  refine marks.bind fun _ _ _ => (Scan.Alike.sees _).bind_eq fun declared => ?_
  exact .ite_bind placeless_declaration alike_prologEnd

theorem alikeOn_prolog (named : ∀ n ∈ name, IsEncodingName n.toList)
    (named' : ∀ n ∈ name', IsEncodingName n.toList) (rest : List Char) :
    AlikeOn SameProlog prolog prolog
      ((XmlDeclaration.short name).text ++ rest) ((XmlDeclaration.short name').text ++ rest) := by
  have begins (name : Option String) :
      "<?xml ".toList.isPrefixOf ((XmlDeclaration.short name).text ++ rest) := by
    rw [text_short]
    rfl
  have unmarked (name : Option String) :
      (Scan.accept "\uFEFF" : Scan Error Bool).Reads [] ((XmlDeclaration.short name).text ++ rest)
        (· = false) := by
    rw [text_short]
    exact .not_accept rfl
  have declared (name : Option String) :
      (Scan.sees "<?xml " : Scan Error Bool).Reads [] ((XmlDeclaration.short name).text ++ rest)
        (· = true) :=
    fun place => ⟨_, place, rfl, begins name⟩
  refine .look (unmarked name) (unmarked name') ?_
  refine .look (declared name) (declared name') ?_
  exact ((reads_declaration named).alikeOn (R := fun _ _ => True) (reads_declaration named')
    fun _ _ _ _ => trivial).bind fun _ _ _ => alike_prologEnd

theorem alikeOn_document (prologs : AlikeOn SameProlog prolog prolog cs ds) :
    AlikeOn (· = ·) document document cs ds := by
  refine prologs.bind ?_
  rintro ⟨read, es⟩ ⟨_, es'⟩ ⟨rfl, entities⟩
  dsimp only
  refine Scan.Alike.peek.bind_eq fun next => ?_
  refine .choice_bind (fun _ => alike_root entities _) (fun _ => .pure (.refl _)) ?_
  rintro b _ ⟨as, pending, rfl⟩
  refine (placeless_miscellany []).bind_eq fun more => .here_bind fun cs place place' => ?_
  refine .guard fun _ => .lift ?_
  unfold Builder.finish
  dsimp only
  cases b.frames with
  | nil => exact Text.rel_ite (fun _ => .ok rfl) fun _ => .error _ _
  | cons frame frames => exact .error _ _

theorem alike_parse (prologs : AlikeOn SameProlog prolog prolog cs ds) :
    Alike (· = ·) (parse cs) (parse ds) :=
  ((alikeOn_document prologs).run .start .start).map fun _ _ same => same

/-- Documents that differ in the encoding they declare are read as the same tree, or both are not
well-formed. -/
theorem alike_parse_short (named : ∀ n ∈ name, IsEncodingName n.toList)
    (named' : ∀ n ∈ name', IsEncodingName n.toList) (rest : List Char) :
    Alike (· = ·) (parse ((XmlDeclaration.short name).text ++ rest))
      (parse ((XmlDeclaration.short name').text ++ rest)) :=
  alike_parse (alikeOn_prolog named named' rest)

/-- With a byte order mark and without, a document is read as the same tree, or it is not
well-formed. -/
theorem alike_parse_mark (unmarked : cs.head? ≠ some '\uFEFF') :
    Alike (· = ·) (parse ('\uFEFF' :: cs)) (parse cs) :=
  alike_parse (alikeOn_prolog_mark unmarked)

end StumpCompiler.Xml
