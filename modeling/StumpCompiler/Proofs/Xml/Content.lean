import StumpCompiler.Proofs.Xml.Tag

/-! Trees of elements and texts, as they are written, are read as they are. The induction is on the
tree; each piece of content is one round of the loop that reads content. -/

namespace StumpCompiler.Xml

open Text (Scan Position)

/-- Characters of a document that stand for themselves in a text, without one that may end a
section. -/
def isTextChar (c : Char) : Bool :=
  isXmlChar c && !"<>&\r".toList.contains c

/-- A text that is written as it stands. -/
structure IsPlainText (s : String) : Prop where
  ne_empty : s ≠ ""
  chars : ∀ c ∈ s.toList, isTextChar c

def Node.isText : Node → Bool
  | text _ => true
  | _ => false

mutual

/-- The text of a tree of elements and texts. -/
def Node.print : Node → List Char
  | .element name attributes children =>
    '<' :: (name.localName.toList ++ printTagRest attributes ++ printAll children ++
      '<' :: '/' :: (name.localName.toList ++ ['>']))
  | .text content => content.toList
  | .comment _ | .instruction _ _ => []

def printAll : List Node → List Char
  | [] => []
  | n :: ns => n.print ++ printAll ns

end

mutual

/-- A tree of elements and texts that are written as they stand. -/
def Node.IsPlain : Node → Prop
  | .element name attributes children =>
    name.qualifier = "" ∧ IsPlainName name.localName ∧ ArePlain attributes ∧ NodesArePlain children
  | .text content => IsPlainText content
  | .comment _ | .instruction _ _ => False

/-- Plain trees side by side, with no two texts in a row. -/
def NodesArePlain : List Node → Prop
  | [] => True
  | n :: ns => n.IsPlain ∧ NodesArePlain ns ∧ (n.isText → ∀ next ∈ ns.head?, next.isText = false)

end

theorem nodesArePlain_of_all {ns : List Node} (plain : ∀ n ∈ ns, n.IsPlain ∧ n.isText = false) :
    NodesArePlain ns := by
  induction ns with
  | nil => trivial
  | cons n ns ih =>
    obtain ⟨first, markup⟩ := plain n (by simp)
    refine ⟨first, ih fun m hm => plain m (by simp [hm]), fun text => ?_⟩
    rw [markup] at text
    contradiction

theorem exists_printAll_eq_cons {n : Node} {ns : List Node} (plain : NodesArePlain (n :: ns))
    (markup : n.isText = false) : ∃ cs, printAll (n :: ns) = '<' :: cs := by
  have first := plain.1
  cases n with
  | element name as children => exact ⟨_, rfl⟩
  | text => contradiction
  | comment | instruction => exact first.elim

/-! Texts. -/

variable {rest : List Char} {b : Builder}

theorem holds_eq_false {word : String} {c : Char} {cs : List Char} (mem : c ∈ word.toList)
    (absent : c ∉ cs) : holds word cs = false := by
  have cut : Text.cutBefore (startsWith word) cs = (cs, []) := by
    refine Text.cutBefore_eq_iff.mpr ⟨(List.append_nil cs).symm, .inl rfl, ?_⟩
    rintro es ds rfl -
    rw [List.append_nil, Bool.eq_false_iff]
    intro starts
    have sub := List.isPrefixOf_iff_prefix.mp starts
    exact absent (by simp [sub.subset mem])
  rw [holds, cut]
  rfl

theorem isXmlChar_of_isTextChar {c : Char} (h : isTextChar c) : isXmlChar c := by
  simp only [isTextChar, Bool.and_eq_true] at h
  exact h.1

theorem reads_textRun {first : Char} {more : List Char} (start : Position)
    (chars : ∀ c ∈ first :: more, isTextChar c) (stops : ∀ c ∈ rest.head?, c = '<') :
    (textRun start first).Reads more rest (· = first :: more) := by
  have all : ∀ c ∈ first :: more, isXmlChar c := fun c hc => isXmlChar_of_isTextChar (chars c hc)
  have unclosed : holds "]]>" (first :: more) = false :=
    holds_eq_false (by decide : '>' ∈ "]]>".toList) fun mem =>
      absurd (chars _ mem) (by decide)
  refine .bind_all_eq (.upTo ?_ ?_) ?_
  · rintro cs (_ | ⟨d, ds⟩) rfl ne
    · contradiction
    · simpa using ne_of_class (chars d (by simp)) (by decide : isTextChar '<' = false)
  · cases rest with
    | nil => exact .inl rfl
    | cons c cs => exact .inr (by simp [stops c rfl])
  · refine .lift_bind (allowed_eq_ok all start) ?_
    rw [unclosed]
    exact .pure rfl

theorem push_eq_cons {buffer : List Char} {c : Char} (last : Bool) (ordinary : c ≠ '\r')
    (before : '\r' ∉ buffer) : push buffer c last = c :: buffer := by
  have same : (if last && c = '\r' then '\n' else c) = c := if_neg (by simp [ordinary])
  unfold push
  simp only [same]
  split
  · simp at before
  · rfl

theorem addRun_eq_ok (l : Level) {cs : List Char} (chars : ∀ c ∈ cs, isTextChar c)
    {buffer : List Char} (before : '\r' ∉ buffer) :
    l.addRun buffer false b (cs.map .char) = .ok (b.flush (cs.reverse ++ buffer)) := by
  induction cs generalizing buffer with
  | nil => rfl
  | cons c cs ih =>
    have ordinary : c ≠ '\r' := ne_of_class (chars c (by simp)) (by decide)
    rw [List.map_cons, Level.addRun, if_neg (by simp), push_eq_cons _ ordinary before,
      ih (fun d hd => chars d (by simp [hd])) (by simp [before, Ne.symm ordinary])]
    simp

/-! What a plain node makes of a document under construction. -/

def Builder.put (b : Builder) (n : Node) : Builder :=
  { b.modifyChildren (n :: ·) with joins := n.isText }

theorem Builder.put_pending (b : Builder) (n : Node) : (b.put n).pending = b.pending := by
  obtain ⟨top, frames, _⟩ := b
  cases frames <;> rfl

theorem Builder.put_started (b : Builder) (n : Node) : (b.put n).started = b.started := by
  obtain ⟨top, frames, _⟩ := b
  cases frames <;> rfl

theorem Builder.flush_text {s : String} (ne_empty : s ≠ "") (fresh : b.joins = false) :
    b.flush s.toList.reverse = b.put (.text s) := by
  have filled : s.toList.reverse.isEmpty = false := by
    simpa using ne_empty
  rw [Builder.flush, filled, List.reverse_reverse, String.ofList_toList, Builder.addText, fresh]
  rfl

/-- Nodes below the innermost open element leave everything else alone. -/
theorem Builder.foldl_put_opened (b : Builder) (name : String) (as : List Attribute)
    (ns : List Node) :
    ∃ joins, ns.foldl Builder.put (b.opened name as) =
      { b.opened name as with
        frames := ⟨⟨"", name⟩, as, b.scope, ns.reverse⟩ :: b.frames
        joins } := by
  induction ns using List.reverseRecOn with
  | nil => exact ⟨false, rfl⟩
  | append_singleton ns n ih =>
    obtain ⟨joins, built⟩ := ih
    refine ⟨n.isText, ?_⟩
    rw [List.foldl_append, built, List.reverse_append]
    rfl

theorem Builder.close_opened (name : String) (as : List Attribute) (ns : List Node)
    (settled : b.pending = .empty) (begun : b.started) (place : Position) :
    (ns.foldl Builder.put (b.opened name as)).close ⟨"", name⟩ place =
      .ok (b.put (.element ⟨"", name⟩ as ns)) := by
  obtain ⟨joins, built⟩ := Builder.foldl_put_opened b name as ns
  have no_more (scope : Namespaces) : Attributes.empty.complete scope = .ok (scope, []) := rfl
  rw [built]
  obtain ⟨top, frames, pending, started, joins, references⟩ := b
  simp only at settled begun
  subst settled begun
  simp only [Builder.close, Builder.takePending, Builder.opened, Builder.put, no_more]
  cases frames <;> simp [bind, Except.bind, pure, Except.pure, Builder.addNode,
    Builder.modifyChildren, Node.isText]

/-! Rounds of the loop that reads content. -/

section

variable {d : ℕ} {more : List Char} {Q : ContentState → Prop}

theorem contentStep_text (l : Level) {c : Char} (ordinary : c ≠ '<') (cs : List Char)
    (place : Position) :
    contentStep l ⟨d + 1, b⟩ ⟨c :: cs, place⟩ = some (do
      let run ← textRun place c
      let builder ← Scan.lift (l.addRun [] false b (pieces place run))
      return ⟨d + 1, builder⟩) := by
  simp [contentStep, ordinary]

theorem contentStep_open (l : Level) {cs : List Char} (named : ∃ c ∈ cs.head?, isNameChar c)
    (place : Position) :
    contentStep l ⟨d + 1, b⟩ ⟨'<' :: cs, place⟩ = some (do
      let (builder, opens) ← startTag l b
      return ⟨if opens then d + 1 + 1 else d + 1, builder⟩) := by
  obtain ⟨c, first, name_char⟩ := named
  obtain ⟨cs, rfl⟩ := List.head?_eq_some_iff.mp first
  have slash := ne_of_class name_char (by decide : isNameChar '/' = false)
  have bang := ne_of_class name_char (by decide : isNameChar '!' = false)
  have mark := ne_of_class name_char (by decide : isNameChar '?' = false)
  simp [contentStep, slash, bang, mark]

theorem contentStep_close (l : Level) (cs : List Char) (place : Position) :
    contentStep l ⟨d + 1, b⟩ ⟨'<' :: '/' :: cs, place⟩ = some (do
      let name ← closeTag
      let builder ← Scan.lift (b.close name place)
      return ⟨d, builder⟩) :=
  rfl

theorem reads_text (l : Level) {s : String} (plain : IsPlainText s) (fresh : b.joins = false)
    (stops : ∀ c ∈ (more ++ rest).head?, c = '<')
    (later : (Scan.loop (contentStep l) ⟨d + 1, b.put (.text s)⟩).Reads more rest Q) :
    (Scan.loop (contentStep l) ⟨d + 1, b⟩).Reads (s.toList ++ more) rest Q := by
  obtain ⟨c, cs, eq⟩ : ∃ c cs, s.toList = c :: cs :=
    List.exists_cons_of_ne_nil (by simpa using plain.ne_empty)
  have chars := plain.chars
  rw [eq] at chars ⊢
  have ordinary : c ≠ '<' := ne_of_class (chars c (by simp)) (by decide)
  have unreferring : '&' ∉ c :: cs := fun mem => absurd (chars _ mem) (by decide)
  refine .loop_step_eq (fun place => ?_) later
  refine ⟨_, contentStep_text l ordinary _ place, ?_⟩
  refine .bind_all_eq (reads_textRun place chars stops) ?_
  have added : l.addRun [] false b (pieces place (c :: cs)) = .ok (b.put (.text s)) := by
    rw [pieces_eq_map unreferring, addRun_eq_ok l chars (by simp), ← eq, List.append_nil,
      Builder.flush_text plain.ne_empty fresh]
  exact .lift_bind added (.pure rfl)

theorem reads_open (l : Level) {name : String} {as : List Attribute} (plain : IsPlainName name)
    (h : ArePlain as) (settled : b.pending = .empty)
    (later : (Scan.loop (contentStep l) ⟨d + 1 + 1, b.opened name as⟩).Reads more rest Q) :
    (Scan.loop (contentStep l) ⟨d + 1, b⟩).Reads
      ('<' :: (name.toList ++ printTagRest as) ++ more) rest Q := by
  have named : ∃ c ∈ (name.toList ++ printTagRest as ++ more ++ rest).head?, isNameChar c := by
    obtain ⟨c, cs, eq, name_char⟩ := plain.exists_cons
    exact ⟨c, by simp [eq], name_char⟩
  refine .loop_step_eq (fun place => ?_) later
  refine ⟨_, contentStep_open l named place, ?_⟩
  exact .bind_all_eq (reads_startTag l plain h settled) (.pure rfl)

theorem reads_closeTag {name : String} (plain : IsPlainName name) :
    closeTag.Reads ('/' :: (name.toList ++ ['>'])) rest (· = ⟨"", name⟩) := by
  have parts : '/' :: (name.toList ++ ['>']) = ['/'] ++ (name.toList ++ ['>']) := rfl
  rw [parts]
  refine .bind (.skip rfl) fun _ _ => ?_
  refine .bind_eq (reads_qualifiedName plain (by simp; decide)) ?_
  refine .bind_nothing (reads_spaces (by simp) (by simp; decide)) fun _ _ => ?_
  exact .bind_all (reads_expect '>') fun _ _ => .pure rfl

theorem reads_close (l : Level) {name : String} (plain : IsPlainName name) {c : Builder}
    (closes : ∀ place, b.close ⟨"", name⟩ place = .ok c)
    (later : (Scan.loop (contentStep l) ⟨d, c⟩).Reads more rest Q) :
    (Scan.loop (contentStep l) ⟨d + 1, b⟩).Reads
      ('<' :: ('/' :: (name.toList ++ ['>'])) ++ more) rest Q := by
  refine .loop_step_eq (fun place => ?_) later
  refine ⟨_, contentStep_close l _ place, ?_⟩
  exact .bind_all_eq (reads_closeTag plain) (.lift_bind (closes place) (.pure rfl))

end

mutual

/-- A plain node is read as it is, and what follows it is read behind it. -/
theorem reads_node (l : Level) (n : Node) (plain : n.IsPlain) {b : Builder} {d : ℕ}
    {more rest : List Char} {Q : ContentState → Prop} (settled : b.pending = .empty)
    (begun : b.started) (fresh : n.isText → b.joins = false)
    (stops : n.isText → ∀ c ∈ (more ++ rest).head?, c = '<')
    (later : (Scan.loop (contentStep l) ⟨d + 1, b.put n⟩).Reads more rest Q) :
    (Scan.loop (contentStep l) ⟨d + 1, b⟩).Reads (n.print ++ more) rest Q := by
  match n with
  | .element ⟨qualifier, name⟩ as ns =>
    obtain ⟨rfl, named, attributes, children⟩ := plain
    have close := reads_close l named (Builder.close_opened name as ns settled begun) later
    have inside := reads_nodes l ns children (b := b.opened name as) rfl rfl (fun _ _ _ => rfl)
      (by simp) close
    refine .of_eq (reads_open l named attributes settled inside) ?_
    simp [Node.print]
  | .text s => exact reads_text l plain (fresh rfl) (stops rfl) later

/-- Plain nodes side by side are read as they are. -/
theorem reads_nodes (l : Level) (ns : List Node) (plain : NodesArePlain ns) {b : Builder} {d : ℕ}
    {more rest : List Char} {Q : ContentState → Prop} (settled : b.pending = .empty)
    (begun : b.started) (fresh : ∀ n ∈ ns.head?, n.isText → b.joins = false)
    (stops : ∀ c ∈ (more ++ rest).head?, c = '<')
    (later : (Scan.loop (contentStep l) ⟨d + 1, ns.foldl Builder.put b⟩).Reads more rest Q) :
    (Scan.loop (contentStep l) ⟨d + 1, b⟩).Reads (printAll ns ++ more) rest Q := by
  match ns with
  | [] => exact later
  | n :: ns =>
    obtain ⟨first, others, apart⟩ := plain
    rw [printAll, List.append_assoc]
    refine reads_node l n first settled begun (fresh n rfl) (fun text => ?_) ?_
    · cases ns with
      | nil => exact stops
      | cons next ns =>
        obtain ⟨cs, starts⟩ := exists_printAll_eq_cons others (apart text next rfl)
        simp [starts]
    · refine reads_nodes l ns others (b.put_pending n ▸ settled) (b.put_started n ▸ begun) ?_ stops
        later
      intro next first text
      rw [Bool.eq_false_iff]
      intro joins
      have := apart joins next first
      rw [text] at this
      contradiction

end

end StumpCompiler.Xml
