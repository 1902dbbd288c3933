import StumpCompiler.Proofs.Xml.Alike.Markup
import StumpCompiler.Xml.Content

/-! Content is read alike wherever it stands, and wherever the values of its entities stand. -/

namespace StumpCompiler.Xml

open Text (Scan Position Cursor Alike)
open Text.Scan (Placeless)

/-! Attributes that belong to no element yet. -/

/-- The same attributes, read at any places. -/
structure Attributes.Alike (as as' : Attributes) : Prop where
  namespaces : as.namespaces = as'.namespaces
  plain : as.plain.map Prod.fst = as'.plain.map Prod.fst

namespace Attributes

theorem alike_add {as as' : Attributes} (same : as.Alike as') (a : Attribute)
    (place place' : Position) :
    Text.Alike Attributes.Alike (as.add a place) (as'.add a place') := by
  obtain ⟨namespaces, plain⟩ := as
  obtain ⟨_, plain'⟩ := as'
  obtain ⟨rfl, plain⟩ := same
  unfold add
  refine Text.rel_ite (fun _ => ?_) fun _ => ?_
  · refine .guard fun _ => Text.rel_ite (fun _ => ?_) fun _ => ?_
    · exact Text.rel_ite (fun _ => .ok ⟨rfl, plain⟩) fun _ => .error _ _
    · refine .guard fun _ => .guard fun _ => ?_
      exact .ok ⟨rfl, plain⟩
  · refine Text.rel_ite (fun _ => ?_) fun _ => ?_
    · refine .guard fun _ => .guard fun _ => ?_
      exact .ok ⟨rfl, plain⟩
    · exact .ok ⟨rfl, by simpa using plain⟩

theorem alike_namespaceOf (scope : Namespaces) (n : Name) (place place' : Position) :
    Text.Alike (· = ·) (namespaceOf scope n place) (namespaceOf scope n place') := by
  refine Text.rel_ite (fun _ => .ok rfl) fun _ => Text.rel_ite (fun _ => .ok rfl) fun _ => ?_
  cases scope.lookup n.qualifier with
  | none => exact .error _ _
  | some uri => exact .ok rfl

theorem alike_distinct (scope : Namespaces) {plain plain' : List (Attribute × Position)}
    (same : plain.map Prod.fst = plain'.map Prod.fst) (seen : List (Option String × String)) :
    Text.Alike (· = ·) (distinct scope seen plain) (distinct scope seen plain') := by
  induction plain generalizing plain' seen with
  | nil =>
    obtain rfl := List.map_eq_nil_iff.mp same.symm
    exact .ok rfl
  | cons a plain ih =>
    obtain ⟨a, place⟩ := a
    obtain ⟨⟨a', place'⟩, plain', rfl, equal, rest⟩ := List.map_eq_cons_iff.mp same.symm
    obtain rfl : a' = a := equal
    refine (alike_namespaceOf scope a'.name place place').bind ?_
    rintro uri _ rfl
    exact .guard fun _ => ih rest.symm _

theorem alike_complete {as as' : Attributes} (same : as.Alike as') (outer : Namespaces) :
    Text.Alike (· = ·) (as.complete outer) (as'.complete outer) := by
  obtain ⟨namespaces, plain⟩ := as
  obtain ⟨_, plain'⟩ := as'
  obtain ⟨rfl, plain⟩ := same
  refine (alike_distinct _ plain []).bind fun _ _ _ => .ok ?_
  exact congrArg _ plain

end Attributes

theorem alike_checkQualifier (scope : Namespaces) (n : Name) (place place' : Position) :
    Text.Alike (· = ·) (checkQualifier scope n place) (checkQualifier scope n place') :=
  Text.rel_ite (fun _ => .ok rfl) fun _ => .error _ _

/-! What is built. -/

/-- Nothing but the places of pending attributes tells the two apart. -/
def Builder.Alike (b b' : Builder) : Prop :=
  ∃ as, b.pending.Alike as ∧ b' = { b with pending := as }

namespace Builder

variable {b b' : Builder}

theorem Alike.refl (b : Builder) : b.Alike b :=
  ⟨b.pending, ⟨rfl, rfl⟩, rfl⟩

theorem Alike.modifyChildren (same : b.Alike b') (f : List Node → List Node) :
    (b.modifyChildren f).Alike (b'.modifyChildren f) := by
  obtain ⟨as, pending, rfl⟩ := same
  refine ⟨as, ?_, ?_⟩
  · unfold Builder.modifyChildren
    cases b.frames <;> exact pending
  · unfold Builder.modifyChildren
    cases b.frames <;> rfl

theorem Alike.addNode (same : b.Alike b') (n : Node) : (b.addNode n).Alike (b'.addNode n) := by
  obtain ⟨as, pending, eq⟩ := same.modifyChildren (n :: ·)
  exact ⟨as, pending, by rw [Builder.addNode, Builder.addNode, eq]⟩

theorem Alike.addText (same : b.Alike b') (s : String) : (b.addText s).Alike (b'.addText s) := by
  obtain ⟨as, pending, eq⟩ :=
    same.modifyChildren (if b.joins then joinText s else (.text s :: ·))
  have joins : b'.joins = b.joins := by
    obtain ⟨-, -, rfl⟩ := same
    rfl
  exact ⟨as, pending, by rw [Builder.addText, Builder.addText, joins, eq]⟩

theorem Alike.flush (same : b.Alike b') (buffer : List Char) :
    (b.flush buffer).Alike (b'.flush buffer) :=
  Text.rel_ite (fun _ => same) fun _ => same.addText _

theorem alike_addAttribute (same : b.Alike b') (a : Attribute) (place place' : Position) :
    Text.Alike Builder.Alike (b.addAttribute a place) (b'.addAttribute a place') := by
  obtain ⟨as, pending, rfl⟩ := same
  exact (Attributes.alike_add pending a place place').bind fun _ _ added => .ok ⟨_, added, rfl⟩

/-- Nothing is pending behind a complete tag, so nothing tells the two apart. -/
theorem alike_takePending (same : b.Alike b') :
    Text.Alike (· = ·) b.takePending b'.takePending := by
  obtain ⟨as, pending, rfl⟩ := same
  refine (Attributes.alike_complete pending b.scope).bind ?_
  rintro x _ rfl
  exact .ok rfl

theorem alike_openElement (same : b.Alike b') (name : Name) (place place' : Position) :
    Text.Alike Builder.Alike (b.openElement name place) (b'.openElement name place') := by
  refine (alike_takePending same).bind ?_
  rintro ⟨scope, attributes, taken⟩ _ rfl
  exact (alike_checkQualifier scope name place place').bind fun _ _ _ => .ok (.refl _)

theorem alike_addElement (same : b.Alike b') (name : Name) (place place' : Position) :
    Text.Alike Builder.Alike (b.addElement name place) (b'.addElement name place') := by
  refine (alike_takePending same).bind ?_
  rintro ⟨scope, attributes, taken⟩ _ rfl
  exact (alike_checkQualifier scope name place place').bind fun _ _ _ => .ok (.refl _)

theorem alike_close (same : b.Alike b') (name : Name) (place place' : Position) :
    Text.Alike Builder.Alike (b.close name place) (b'.close name place') := by
  have started : b'.started = b.started := by
    obtain ⟨-, -, rfl⟩ := same
    rfl
  unfold Builder.close
  rw [started]
  refine .guard fun _ => (alike_takePending same).bind ?_
  rintro ⟨-, -, taken⟩ _ rfl
  dsimp only
  cases taken.frames with
  | nil => exact .ok (.refl _)
  | cons frame frames => exact .guard fun _ => .ok (.refl _)

end Builder

/-! References. -/

inductive Piece.Alike : Piece → Piece → Prop
  | char (c : Char) : Alike (.char c) (.char c)
  | reference (body : List Char) (place behind place' behind' : Position) :
    Alike (.reference body place behind) (.reference body place' behind')
  | unclosed (place place' : Position) : Alike (.unclosed place) (.unclosed place')

theorem Piece.any_head?_eq {ps ps' : List Piece} (pieces : List.Forall₂ Piece.Alike ps ps')
    {q : Piece → Bool} (blind : ∀ p p', p.Alike p' → q p = q p') :
    ps.head?.any q = ps'.head?.any q := by
  cases pieces with
  | nil => rfl
  | cons first _ => exact blind _ _ first

theorem alike_piecesFrom (cs : List Char) : ∀ (p p' : Position),
    List.Forall₂ Piece.Alike (piecesFrom none p cs) (piecesFrom none p' cs) ∧
      ∀ place place' body, List.Forall₂ Piece.Alike (piecesFrom (some (place, body)) p cs)
        (piecesFrom (some (place', body)) p' cs) := by
  induction cs with
  | nil => exact fun p p' => ⟨.nil, fun _ _ _ => .cons (.unclosed _ _) .nil⟩
  | cons c cs ih =>
    intro p p'
    obtain ⟨outside, inside⟩ := ih (p.after c) (p'.after c)
    refine ⟨?_, fun place place' body => ?_⟩
    · exact Text.rel_ite (fun _ => inside _ _ _) fun _ => .cons (.char c) outside
    · exact Text.rel_ite (fun _ => .cons (.reference _ _ _ _ _) outside) fun _ => inside _ _ _

theorem alike_pieces (p p' : Position) (cs : List Char) :
    List.Forall₂ Piece.Alike (pieces p cs) (pieces p' cs) :=
  (alike_piecesFrom cs p p').1

/-- A name is declared in both, with the same value, or in none. -/
theorem Entities.Alike.find? {es es' : Entities} (same : es.Alike es') (name : String) :
    Option.Rel (fun c d => c.rest = d.rest) (es.find? name) (es'.find? name) := by
  induction same with
  | nil => exact .none
  | cons e more ih =>
    obtain ⟨names, values⟩ := e
    unfold Entities.find? at ih ⊢
    rw [List.lookup_cons, List.lookup_cons, names]
    cases name == _ with
    | true => exact .some values
    | false => exact ih

namespace Level

/-- References mean alike. -/
structure Alike (l l' : Level) : Prop where
  entities : l.entities.Alike l'.entities
  nested : l.nested = l'.nested
  expandContent : ∀ {behind behind' value value' b b'}, value.rest = value'.rest → b.Alike b' →
    Text.Alike Builder.Alike (l.expandContent behind value b) (l'.expandContent behind' value' b')
  expandValue : ∀ {behind behind' value value'} references, value.rest = value'.rest →
    Text.Alike (· = ·) (l.expandValue behind value references)
      (l'.expandValue behind' value' references)

variable {l l' : Level} {b b' : Builder} {ps ps' : List Piece}

theorem alike_addRun (levels : l.Alike l') (pieces : List.Forall₂ Piece.Alike ps ps')
    (same : b.Alike b') (buffer : List Char) (raw : Bool) :
    Text.Alike Builder.Alike (l.addRun buffer raw b ps) (l'.addRun buffer raw b' ps') := by
  induction pieces generalizing b b' buffer raw with
  | nil => exact .ok (same.flush buffer)
  | @cons p p' ps ps' piece more ih =>
    have ends : ps.isEmpty = ps'.isEmpty := by cases more <;> rfl
    cases piece with
    | char c =>
      rw [addRun, addRun, ends]
      exact ih same _ _
    | unclosed => exact .error _ _
    | reference body place behind place' behind' =>
      rw [addRun, addRun]
      cases Reference.ofChars? body with
      | none => exact .error _ _
      | some reference =>
        cases reference with
        | char c =>
          dsimp only
          rw [levels.nested, ends]
          exact Text.rel_ite (fun _ => ih same _ _) fun _ => ih same _ _
        | entity name =>
          have values := levels.entities.find? name
          dsimp only
          generalize l.entities.find? name = value at values ⊢
          generalize l'.entities.find? name = value' at values ⊢
          cases values with
          | none => exact .error _ _
          | some values =>
            refine (levels.expandContent values (same.flush buffer)).bind fun _ _ same' => ?_
            exact ih same' _ _

theorem alike_normalise (levels : l.Alike l') (pieces : List.Forall₂ Piece.Alike ps ps')
    (read : List Char) (references : ℕ) :
    Text.Alike (· = ·) (l.normalise read references ps) (l'.normalise read references ps') := by
  induction pieces generalizing read references with
  | nil => exact .ok rfl
  | @cons p p' ps ps' piece more ih =>
    cases piece with
    | char c =>
      rw [normalise, normalise, Piece.any_head?_eq more fun _ _ same => by cases same <;> rfl]
      exact Text.rel_ite (fun _ => ih _ _) fun _ => ih _ _
    | unclosed => exact .error _ _
    | reference body place behind place' behind' =>
      rw [normalise, normalise]
      cases Reference.ofChars? body with
      | none => exact .error _ _
      | some reference =>
        cases reference with
        | char c =>
          dsimp only
          rw [levels.nested]
          refine Text.rel_ite (fun _ => ih _ _) fun _ => ?_
          exact .guard fun _ => ih _ _
        | entity name =>
          have values := levels.entities.find? name
          dsimp only
          generalize l.entities.find? name = value at values ⊢
          generalize l'.entities.find? name = value' at values ⊢
          cases values with
          | none => exact .error _ _
          | some values =>
            refine (levels.expandValue references values).bind ?_
            rintro ⟨cs, references⟩ _ rfl
            exact ih _ _

theorem alike_follow (nested : Bool) (references : ℕ) (place place' : Position) :
    Text.Alike (· = ·) (follow nested references place) (follow nested references place') :=
  Text.rel_ite (fun _ => .ok rfl) fun _ => .guard fun _ => .ok rfl

end Level

/-! Tags, sections and runs of text. -/

section

variable {l l' : Level} {b b' : Builder}

structure TagState.Alike (s s' : TagState) : Prop where
  builder : s.builder.Alike s'.builder
  opens : s.opens = s'.opens

theorem alike_tagAttribute (levels : l.Alike l') {s s' : TagState} (same : s.Alike s') :
    Scan.Alike TagState.Alike (tagAttribute l s) (tagAttribute l' s') := by
  obtain ⟨b, opens⟩ := s
  obtain ⟨b', opens'⟩ := s'
  obtain ⟨⟨as, pending, rfl⟩, rfl⟩ : b.Alike b' ∧ opens = opens' := ⟨same.builder, same.opens⟩
  refine alike_rawAttribute.bind ?_
  rintro ⟨name, place, value, valuePlace⟩ ⟨_, place', _, valuePlace'⟩ ⟨rfl, rfl⟩
  have pieces := alike_pieces valuePlace valuePlace' value
  have normal := Level.alike_normalise levels pieces [] b.references
  refine (Scan.Alike.lift normal).bind_eq fun (value, references) => ?_
  have built : ({ b with references } : Builder).Alike { b with pending := as, references } :=
    ⟨as, pending, rfl⟩
  refine (Scan.Alike.lift (Builder.alike_addAttribute built _ place place')).bind ?_
  exact fun _ _ added => .pure ⟨added, rfl⟩

theorem alike_tagStep (levels : l.Alike l') {s s' : TagState} (same : s.Alike s') (cs : List Char)
    (place place' : Position) :
    Option.Rel (Scan.Alike TagState.Alike) (tagStep l s ⟨cs, place⟩)
      (tagStep l' s' ⟨cs, place'⟩) := by
  unfold tagStep
  rw [same.opens]
  refine Text.rel_ite (fun _ => .none) fun _ => ?_
  dsimp only
  split
  · exact .none
  · exact .some ((placeless_expect '>').bind_eq fun _ => .pure ⟨same.builder, rfl⟩)
  · exact .some (.pure ⟨same.builder, rfl⟩)
  · refine Text.rel_ite (fun _ => .some ?_) fun _ => .some (.fail _ _)
    refine placeless_spaces.bind_eq fun _ => Scan.Alike.peek.bind_eq fun next => ?_
    split
    · exact .fail _ _
    · refine (Scan.Alike.skip 1).bind_eq fun _ => ?_
      exact (placeless_expect '>').bind_eq fun _ => .pure ⟨same.builder, rfl⟩
    · exact (Scan.Alike.skip 1).bind_eq fun _ => .pure ⟨same.builder, rfl⟩
    · exact alike_tagAttribute levels same

theorem alike_startTag (levels : l.Alike l') (same : b.Alike b') :
    Scan.Alike (fun x y => x.1.Alike y.1 ∧ x.2 = y.2) (startTag l b) (startTag l' b') := by
  refine .position_bind fun place place' => ?_
  refine placeless_qualifiedName.bind_eq fun name => ?_
  refine .guard fun _ => ?_
  obtain ⟨as, pending, rfl⟩ := same
  have started : TagState.Alike ⟨b.start, none⟩
      ⟨({ b with pending := as } : Builder).start, none⟩ :=
    ⟨⟨as, pending, rfl⟩, rfl⟩
  refine (Scan.Alike.loop (fun _ _ => alike_tagStep levels) started).bind ?_
  rintro ⟨b, opens⟩ ⟨b', _⟩ ⟨same, rfl⟩
  dsimp only
  split
  · exact .pure ⟨same, rfl⟩
  · refine (Scan.Alike.lift (Builder.alike_openElement same name place place')).bind ?_
    exact fun _ _ opened => .pure ⟨opened, rfl⟩
  · refine (Scan.Alike.lift (Builder.alike_addElement same name place place')).bind ?_
    exact fun _ _ added => .pure ⟨added, rfl⟩

theorem placeless_closeTag : Placeless closeTag := by
  refine (Scan.Alike.skip 1).bind_eq fun _ => ?_
  refine placeless_qualifiedName.bind_eq fun name => ?_
  exact placeless_spaces.bind_eq fun _ => (placeless_expect '>').bind_eq fun _ => .pure rfl

theorem placeless_literalSection : Placeless literalSection := by
  refine (Scan.Alike.skip 8).bind_eq fun _ => ?_
  refine (placeless_charsUpTo _).bind_eq fun cs => ?_
  exact (placeless_expectText "]]>").bind_eq fun _ => .pure rfl

theorem alike_textRun (start start' : Position) (first : Char) :
    Scan.Alike (· = ·) (textRun start first) (textRun start' first) := by
  refine (Scan.Alike.upTo _).bind_eq fun more => ?_
  refine (Scan.Alike.lift (alike_allowed start start' _)).bind_eq fun _ => ?_
  refine .ite (fun _ => ?_) fun _ => .pure rfl
  exact .position_bind fun _ _ => .fail_bind _ _ _ _

/-! Contents. -/

structure ContentState.Alike (s s' : ContentState) : Prop where
  depth : s.depth = s'.depth
  builder : s.builder.Alike s'.builder

theorem alike_contentStep (levels : l.Alike l') {s s' : ContentState} (same : s.Alike s')
    (cs : List Char) (place place' : Position) :
    Option.Rel (Scan.Alike ContentState.Alike) (contentStep l s ⟨cs, place⟩)
      (contentStep l' s' ⟨cs, place'⟩) := by
  unfold contentStep
  rw [same.depth]
  refine Text.rel_ite (fun _ => .none) fun _ => ?_
  dsimp only
  split
  · exact .none
  · refine .some (placeless_closeTag.bind_eq fun name => ?_)
    refine (Scan.Alike.lift (Builder.alike_close same.builder name place place')).bind ?_
    exact fun _ _ closed => .pure ⟨rfl, closed⟩
  · refine Text.rel_ite (fun _ => .some ?_) fun _ => Text.rel_ite (fun _ => .some ?_) fun _ =>
      .some (.fail _ _)
    · refine (alike_comment place place').bind_eq fun node => ?_
      exact .pure ⟨rfl, same.builder.addNode node⟩
    · refine placeless_literalSection.bind_eq fun text => ?_
      exact .pure ⟨rfl, same.builder.addText text⟩
  · refine .some ((alike_instruction place place').bind_eq fun node => ?_)
    exact .pure ⟨rfl, same.builder.addNode node⟩
  · exact .some (.fail _ _)
  · refine .some ((alike_startTag levels same.builder).bind ?_)
    rintro ⟨b, opens⟩ ⟨b', _⟩ ⟨built, rfl⟩
    exact .pure ⟨rfl, built⟩
  · refine .some ((alike_textRun place place' _).bind_eq fun run => ?_)
    have pieces := alike_pieces place place' run
    refine (Scan.Alike.lift (Level.alike_addRun levels pieces same.builder [] false)).bind ?_
    exact fun _ _ built => .pure ⟨rfl, built⟩

theorem alike_contentAt (levels : l.Alike l') (same : b.Alike b') :
    Scan.Alike Builder.Alike (contentAt l b) (contentAt l' b') := by
  have begun : ContentState.Alike ⟨1, b⟩ ⟨1, b'⟩ := ⟨rfl, same⟩
  refine (Scan.Alike.loop (fun _ _ => alike_contentStep levels) begun).bind ?_
  exact fun _ _ read => .pure read.builder

end

/-- References mean alike at every depth. -/
theorem alike_level {es es' : Entities} (entities : es.Alike es') (room : ℕ) :
    (level es room).Alike (level es' room) := by
  induction room with
  | zero => exact ⟨entities, rfl, fun _ _ => .error _ _, fun _ _ => .error _ _⟩
  | succ room ih =>
    refine ⟨entities, rfl, ?_, ?_⟩
    · intro behind behind' value value' b b' values same
      obtain ⟨cs, place⟩ := value
      obtain ⟨_, place'⟩ := value'
      obtain rfl := values
      obtain ⟨as, pending, rfl⟩ := same
      refine (Level.alike_follow _ b.references behind behind').bind ?_
      rintro references _ rfl
      have built : ({ b with started := false, references } : Builder).Alike
          { b with pending := as, started := false, references } := ⟨as, pending, rfl⟩
      refine ((alike_contentAt ih built cs).run place place').bind ?_
      rintro ⟨b', _⟩ ⟨_, _⟩ ⟨as', pending', rfl⟩
      exact .ok ⟨as', pending', rfl⟩
    · intro behind behind' value value' references values
      obtain ⟨cs, place⟩ := value
      obtain ⟨_, place'⟩ := value'
      obtain rfl := values
      refine (Level.alike_follow _ references behind behind').bind ?_
      rintro references _ rfl
      refine (Level.alike_normalise ih (alike_pieces place place' cs) [] references).bind ?_
      rintro ⟨read, references⟩ _ rfl
      exact .ok rfl

end StumpCompiler.Xml
