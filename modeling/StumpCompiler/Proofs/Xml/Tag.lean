import StumpCompiler.Proofs.Xml.Markup
import StumpCompiler.Xml.Content

/-! Start tags with plain attributes, and what they make of a document under construction. -/

namespace StumpCompiler.Xml

open Text (Scan Position)

/-- An attribute that is written with its value as it stands. -/
structure Attribute.IsPlain (a : Attribute) : Prop where
  unqualified : a.name.qualifier = ""
  named : IsPlainName a.name.localName
  ordinary : a.name.localName ≠ "xmlns"
  value : ∀ c ∈ a.value.toList, isValueChar c

/-- The attributes of one element. -/
structure ArePlain (as : List Attribute) : Prop where
  each : ∀ a ∈ as, a.IsPlain
  distinct : (as.map fun a => a.name.localName).Nodup

def Attribute.print (a : Attribute) : List Char :=
  ' ' :: quoted a.name.localName a.value

/-! Values. -/

theorem pieces_eq_map {cs : List Char} (none_refers : '&' ∉ cs) (p : Position) :
    pieces p cs = cs.map .char := by
  rw [pieces]
  induction cs generalizing p with
  | nil => rfl
  | cons c cs ih =>
    simp only [List.mem_cons, not_or] at none_refers
    rw [piecesFrom, if_neg (Ne.symm none_refers.1), ih none_refers.2]
    rfl

theorem blank_eq_self {c : Char} (h : isValueChar c) : Level.blank c = c := by
  by_cases space : c = ' '
  · simp [Level.blank, space]
  · simp [isValueChar] at h
    simp [Level.blank, isSpace, h, space]

theorem normalise_eq_ok (l : Level) {cs : List Char} (all : ∀ c ∈ cs, isValueChar c)
    (read : List Char) (references : ℕ) :
    l.normalise read references (cs.map .char) = .ok (read.reverse ++ cs, references) := by
  induction cs generalizing read with
  | nil => simp [Level.normalise]
  | cons c cs ih =>
    have ordinary : c ≠ '\r' := by
      rintro rfl
      exact absurd (all '\r' (by simp)) (by decide)
    rw [List.map_cons, Level.normalise, if_neg (by simp [ordinary]), blank_eq_self (all c (by simp)),
      ih fun d hd => all d (by simp [hd])]
    simp

/-! Attributes. -/

/-- The attributes `as` were read into a tag, after `b` was built, and the tag goes on. -/
structure Collected (b : Builder) (as : List Attribute) (opens : Option Bool) (s : TagState) :
    Prop where
  opens : s.opens = opens
  builder : ∃ plain, s.builder = { b with pending := ⟨[], plain⟩ } ∧ plain.map Prod.fst = as

variable {rest : List Char} {b : Builder} {as : List Attribute} {s : TagState}

theorem Attributes.add_plain {a : Attribute} (h : a.IsPlain) (plain : List (Attribute × Position))
    (place : Position) :
    Attributes.add ⟨[], plain⟩ a place = .ok ⟨[], plain ++ [(a, place)]⟩ := by
  simp [Attributes.add, h.unqualified, h.ordinary]

theorem reads_tagAttribute (l : Level) {a : Attribute} (h : a.IsPlain)
    (collected : Collected b as none s) :
    (tagAttribute l s).Reads (quoted a.name.localName a.value) rest
      (Collected b (as ++ [a]) none) := by
  obtain ⟨opens, plain, builder, collected⟩ := collected
  refine .bind_all (reads_rawAttribute h.named h.value) fun raw ⟨name, value⟩ => ?_
  have no_reference : '&' ∉ a.value.toList := fun mem =>
    absurd (h.value '&' mem) (by decide)
  have normal : l.normalise [] s.builder.references (pieces raw.valuePlace raw.value) =
      .ok (a.value.toList, s.builder.references) := by
    rw [value, pieces_eq_map no_reference]
    exact normalise_eq_ok l h.value [] _
  refine .lift_bind normal ?_
  have same : (⟨raw.name, String.ofList a.value.toList⟩ : Attribute) = a := by
    rw [name, String.ofList_toList, ← h.unqualified]
  have added : ({ s.builder with references := s.builder.references } : Builder).addAttribute
      ⟨raw.name, String.ofList a.value.toList⟩ raw.place =
        .ok { b with pending := ⟨[], plain ++ [(a, raw.place)]⟩ } := by
    rw [same, Builder.addAttribute, builder]
    simp [Attributes.add_plain h]
  refine .lift_bind added ?_
  exact .pure ⟨opens, _, rfl, by simp [collected]⟩

/-- The attributes of a tag, and its end. -/
def printTagRest (as : List Attribute) : List Char :=
  as.flatMap Attribute.print ++ ['>']

theorem tagStep_eq_none (l : Level) {s : TagState} {o : Bool} (ended : s.opens = some o)
    (c : Text.Cursor) : tagStep l s c = none := by
  simp [tagStep, ended]

theorem reads_tagLoop (l : Level) {more : List Attribute} (plain : ∀ a ∈ more, a.IsPlain)
    (collected : Collected b as none s) :
    (Scan.loop (tagStep l) s).Reads (printTagRest more) rest
      (Collected b (as ++ more) (some true)) := by
  induction more generalizing as s with
  | nil =>
    have last : ∀ place, ∃ step, tagStep l s ⟨'>' :: [] ++ [] ++ rest, place⟩ = some step ∧
        step.Reads [] ([] ++ rest) (Collected b as (some true)) := by
      intro place
      refine ⟨_, by simp [tagStep, collected.opens]; rfl, ?_⟩
      exact .pure ⟨rfl, collected.builder⟩
    refine .loop_step last fun t ended => ?_
    rw [List.append_nil]
    exact .loop_stop (fun place => tagStep_eq_none l ended.opens _) ended
  | cons a more ih =>
    have h := plain a (by simp)
    have next : ∀ place, ∃ step,
        tagStep l s ⟨' ' :: quoted a.name.localName a.value ++ printTagRest more ++ rest, place⟩ =
          some step ∧
        step.Reads (quoted a.name.localName a.value) (printTagRest more ++ rest)
          (Collected b (as ++ [a]) none) := by
      intro place
      refine ⟨_, by simp [tagStep, collected.opens, isSpace]; rfl, ?_⟩
      obtain ⟨c, cs, chars, name_char⟩ := h.named.exists_cons
      have first : (quoted a.name.localName a.value ++ (printTagRest more ++ rest)).head? =
          some c := by
        simp [quoted, chars]
      refine .bind_nothing (reads_spaces (by simp) ?_) fun _ _ => .peek ?_
      · rw [first]
        rintro _ ⟨⟩
        exact isSpace_of_isNameChar name_char
      · rw [first]
        split
        · next impossible => contradiction
        · next slash => exact absurd (Option.some.inj slash) (ne_of_class name_char (by decide))
        · next mark => exact absurd (Option.some.inj mark) (ne_of_class name_char (by decide))
        · exact reads_tagAttribute l h collected
    refine .of_eq (.loop_step next fun t collected => ?_) (by simp [printTagRest, Attribute.print])
    simpa using ih (fun x hx => plain x (by simp [hx])) collected

/-! Start tags. -/

theorem distinct_eq_ok (scope : Namespaces) {plain : List (Attribute × Position)}
    (each : ∀ a ∈ plain.map Prod.fst, a.IsPlain)
    (distinct : ((plain.map Prod.fst).map fun a => a.name.localName).Nodup)
    {seen : List (Option String × String)}
    (new : ∀ a ∈ plain.map Prod.fst, (none, a.name.localName) ∉ seen) :
    Attributes.distinct scope seen plain = .ok () := by
  induction plain generalizing seen with
  | nil => rfl
  | cons x plain ih =>
    obtain ⟨a, place⟩ := x
    simp only [List.map_cons, List.nodup_cons, List.forall_mem_cons] at each distinct new
    have unqualified : Attributes.namespaceOf scope a.name place = .ok none := by
      simp [Attributes.namespaceOf, each.1.unqualified]
    have unseen : seen.contains ((none : Option String), a.name.localName) = false := by
      simpa using new.1
    rw [Attributes.distinct, unqualified]
    simp only [bind, Except.bind, unseen]
    refine ih each.2 distinct.2 fun c hc => ?_
    have other : c.name.localName ≠ a.name.localName := fun same =>
      distinct.1 (same ▸ List.mem_map_of_mem hc)
    simp [other, new.2 c hc]

theorem complete_eq_ok (outer : Namespaces) {plain : List (Attribute × Position)}
    (h : ArePlain (plain.map Prod.fst)) :
    Attributes.complete ⟨[], plain⟩ outer = .ok (outer, plain.map Prod.fst) := by
  rw [Attributes.complete, distinct_eq_ok _ h.each h.distinct (by simp)]
  rfl

/-- An element is opened in `b`, without attributes left from before. -/
def Builder.opened (b : Builder) (name : String) (as : List Attribute) : Builder :=
  { b with
    frames := ⟨⟨"", name⟩, as, b.scope, []⟩ :: b.frames
    pending := .empty
    started := true
    joins := false }

theorem openElement_eq_ok {name : String} (h : ArePlain as) {builder : Builder}
    (built : ∃ plain, builder = { b.start with pending := ⟨[], plain⟩ } ∧ plain.map Prod.fst = as)
    (place : Position) :
    builder.openElement ⟨"", name⟩ place = .ok (b.opened name as) := by
  obtain ⟨plain, rfl, rfl⟩ := built
  rw [Builder.openElement, Builder.takePending]
  have scope : ({ b.start with pending := ⟨[], plain⟩ } : Builder).scope = b.scope := rfl
  simp only [scope, complete_eq_ok _ h]
  rfl

theorem reads_startTag (l : Level) {name : String} (plain : IsPlainName name) (h : ArePlain as)
    (settled : b.pending = .empty) :
    (startTag l b).Reads (name.toList ++ printTagRest as) rest (· = (b.opened name as, true)) := by
  refine .position fun place => ?_
  refine .bind_eq (reads_qualifiedName plain ?_) ?_
  · cases as <;> simp [printTagRest, Attribute.print] <;> decide
  have begun : Collected b.start [] none ⟨b.start, none⟩ := by
    refine ⟨rfl, [], ?_, rfl⟩
    simp [Builder.start, settled, Attributes.empty]
  refine .bind_all (reads_tagLoop l h.each begun) fun s ended => ?_
  simp only [ended.opens]
  exact .lift_bind (openElement_eq_ok h ended.builder place) (.pure rfl)

end StumpCompiler.Xml
