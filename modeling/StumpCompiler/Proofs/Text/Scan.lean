import StumpCompiler.Proofs.Text.Cut
import StumpCompiler.Text.Scan

/-! What a scanner reads in front of a given rest, and what it makes of it. The place of the text
does not matter to `Reads`, so a result that depends on it is described and not given. A scanner
that `Looks` at a text stays at its place. -/

namespace StumpCompiler.Text

variable {ε α β σ : Type}

namespace Scan

/-- The result of a scanner with the cursor behind what it reads. -/
def outcome (p : Scan ε α) (c : Cursor) : Except ε (α × Cursor) :=
  (p.run c).map fun (a, d) => (a, d.val)

theorem outcome_bind (p : Scan ε α) (f : α → Scan ε β) (c : Cursor) :
    (p >>= f).outcome c = p.outcome c >>= fun (a, d) => (f a).outcome d := by
  simp only [outcome, Bind.bind, Scan.bind]
  cases p.run c with
  | error e => rfl
  | ok x =>
    obtain ⟨a, d⟩ := x
    simp only [Except.map, Except.bind]
    cases (f a).run d.val <;> rfl

theorem map_fst_run (p : Scan ε α) (c : Cursor) :
    (p.run c).map Prod.fst = (p.outcome c).map Prod.fst := by
  rw [outcome]
  cases p.run c <;> rfl

theorem length_le_of_outcome {p : Scan ε α} {c d : Cursor} {a : α}
    (h : p.outcome c = .ok (a, d)) : d.rest.length ≤ c.rest.length := by
  rw [outcome] at h
  cases run : p.run c with
  | error e => simp [run, Except.map] at h
  | ok x =>
    obtain ⟨b, ahead⟩ := x
    simp only [run, Except.map, Except.ok.injEq, Prod.mk.injEq] at h
    exact h.2 ▸ ahead.property

theorem outcome_upTo (stop : List Char → Bool) (c : Cursor) :
    (upTo stop : Scan ε (List Char)).outcome c =
      .ok ((cutBefore stop c.rest).1,
        ⟨(cutBefore stop c.rest).2, c.position.afterAll (cutBefore stop c.rest).1⟩) := rfl

theorem outcome_loop (next : σ → Cursor → Option (Scan ε σ)) (s : σ) (c : Cursor) :
    (loop next s).outcome c =
      if c.rest = [] then .ok (s, c)
      else match next s c with
        | none => .ok (s, c)
        | some step => step.outcome (c.drop 1) >>= fun (s', d) => (loop next s').outcome d := by
  simp only [outcome, loop]
  rw [loop.go]
  split
  · rfl
  · cases next s c with
    | none => rfl
    | some step =>
      cases run : step.run (c.drop 1) with
      | error e => simp [run, Except.map, Bind.bind, Except.bind]
      | ok x =>
        obtain ⟨s', d, hd⟩ := x
        simp only [run, Except.map, Bind.bind, Except.bind]
        cases loop.go next s' d <;> rfl

/-- The scanner makes `a` of the text and reads nothing of it. -/
def Looks (p : Scan ε α) (cs : List Char) (a : α) : Prop :=
  ∀ place, p.outcome ⟨cs, place⟩ = .ok (a, ⟨cs, place⟩)

namespace Looks

variable {p : Scan ε α} {cs : List Char} {a : α} {b : β}

theorem pure (a : α) (cs : List Char) : Looks (Pure.pure a : Scan ε α) cs a :=
  fun _ => rfl

theorem outcome_bind (looks : Looks p cs a) (f : α → Scan ε β) (place : Position) :
    (p >>= f).outcome ⟨cs, place⟩ = (f a).outcome ⟨cs, place⟩ := by
  rw [Scan.outcome_bind, looks place]
  rfl

theorem bind {f : α → Scan ε β} (looks : Looks p cs a) (next : Looks (f a) cs b) :
    Looks (p >>= f) cs b :=
  fun place => (looks.outcome_bind f place).trans (next place)

theorem takeWhile {q : Char → Bool} (stops : ∀ c ∈ cs.head?, q c = false) :
    Looks (Scan.takeWhile q : Scan ε (List Char)) cs [] := by
  intro place
  rw [Scan.takeWhile, outcome_upTo]
  cases cs with
  | nil => rfl
  | cons c cs =>
    rw [cutBefore_cons, if_pos (by simp [stops c rfl])]
    rfl

theorem not_sees {word : String} (absent : word.toList.isPrefixOf cs = false) :
    Looks (Scan.sees word : Scan ε Bool) cs false :=
  fun _ => congrArg (fun b => Except.ok (b, _)) absent

theorem not_accept {word : String} (absent : word.toList.isPrefixOf cs = false) :
    Looks (Scan.accept word : Scan ε Bool) cs false :=
  (not_sees absent).bind (pure false cs)

theorem loop_stop {next : σ → Cursor → Option (Scan ε σ)} {s : σ}
    (stop : ∀ place, next s ⟨cs, place⟩ = none) : Looks (Scan.loop next s) cs s := by
  intro place
  rw [outcome_loop, stop place]
  split <;> rfl

end Looks

/-- In front of `rest`, the scanner reads exactly `text`, and its result satisfies `Q`. -/
def Reads (p : Scan ε α) (text rest : List Char) (Q : α → Prop) : Prop :=
  ∀ place, ∃ a end_place, p.outcome ⟨text ++ rest, place⟩ = .ok (a, ⟨rest, end_place⟩) ∧ Q a

namespace Reads

variable {p : Scan ε α} {text more rest : List Char} {Q : α → Prop} {R : β → Prop}

theorem of_eq {text' : List Char} (h : Reads p text' rest Q) (same : text = text') :
    Reads p text rest Q :=
  same ▸ h

/-- What the scanner makes of a whole text. -/
theorem map_fst {a : α} (h : Reads p text [] (· = a)) :
    (p.run (.ofChars text)).map Prod.fst = .ok a := by
  obtain ⟨_, behind, run, rfl⟩ := h .start
  rw [List.append_nil] at run
  rw [map_fst_run, Cursor.ofChars, run]
  rfl

theorem pure {a : α} (h : Q a) : Reads (Pure.pure a : Scan ε α) [] rest Q :=
  fun place => ⟨a, place, rfl, h⟩

theorem bind {f : α → Scan ε β} (first : Reads p text (more ++ rest) Q)
    (next : ∀ a, Q a → Reads (f a) more rest R) : Reads (p >>= f) (text ++ more) rest R := by
  intro place
  obtain ⟨a, mid, run, good⟩ := first place
  obtain ⟨b, last, run_next, good_next⟩ := next a good mid
  refine ⟨b, last, ?_, good_next⟩
  rw [outcome_bind, List.append_assoc, run]
  exact run_next

/-- The first scanner looks at the text and reads nothing of it. -/
theorem bind_nothing {f : α → Scan ε β} (first : Reads p [] (text ++ rest) Q)
    (next : ∀ a, Q a → Reads (f a) text rest R) : Reads (p >>= f) text rest R :=
  bind first next

/-- The first scanner reads all of the text. -/
theorem bind_all {f : α → Scan ε β} (first : Reads p text rest Q)
    (next : ∀ a, Q a → Reads (f a) [] rest R) : Reads (p >>= f) text rest R := by
  have all : Reads (p >>= f) (text ++ []) rest R := bind first next
  rwa [List.append_nil] at all

theorem bind_eq {f : α → Scan ε β} {a : α} (first : Reads p text (more ++ rest) (· = a))
    (next : Reads (f a) more rest R) : Reads (p >>= f) (text ++ more) rest R :=
  bind first fun _ same => same ▸ next

theorem bind_all_eq {f : α → Scan ε β} {a : α} (first : Reads p text rest (· = a))
    (next : Reads (f a) [] rest R) : Reads (p >>= f) text rest R :=
  bind_all first fun _ same => same ▸ next

/-- The first scanner looks at the text or asks for its place. -/
theorem look {f : α → Scan ε β} {a : Position → α}
    (first : ∀ place, p.outcome ⟨text ++ rest, place⟩ = .ok (a place, ⟨text ++ rest, place⟩))
    (next : ∀ place, Reads (f (a place)) text rest R) : Reads (p >>= f) text rest R := by
  intro place
  obtain ⟨b, last, run, good⟩ := next place place
  refine ⟨b, last, ?_, good⟩
  rw [outcome_bind, first]
  exact run

theorem here {f : Cursor → Scan ε β}
    (next : ∀ place, Reads (f ⟨text ++ rest, place⟩) text rest R) :
    Reads (Scan.here >>= f) text rest R :=
  look (fun _ => rfl) next

theorem position {f : Position → Scan ε β} (next : ∀ place, Reads (f place) text rest R) :
    Reads (Scan.position >>= f) text rest R :=
  look (fun _ => rfl) next

theorem peek {f : Option Char → Scan ε β} (next : Reads (f (text ++ rest).head?) text rest R) :
    Reads (Scan.peek >>= f) text rest R :=
  look (fun _ => rfl) fun _ => next

theorem sees {f : Bool → Scan ε β} {word : String}
    (next : Reads (f (word.toList.isPrefixOf (text ++ rest))) text rest R) :
    Reads (Scan.sees word >>= f) text rest R :=
  look (fun _ => rfl) fun _ => next

theorem lift {x : Except ε α} {a : α} (h : x = .ok a) (good : Q a) :
    Reads (Scan.lift x) [] rest Q := by
  subst h
  exact fun place => ⟨a, place, rfl, good⟩

theorem lift_bind {x : Except ε α} {f : α → Scan ε β} {a : α} (h : x = .ok a)
    (next : Reads (f a) text rest R) : Reads (Scan.lift x >>= f) text rest R :=
  bind_nothing (lift h rfl) fun _ same => same ▸ next

theorem skip {n : ℕ} (length : text.length = n) :
    Reads (Scan.skip n : Scan ε Unit) text rest fun _ => True := by
  subst length
  intro place
  refine ⟨(), place.afterAll text, ?_, trivial⟩
  simp [outcome, Scan.skip, Cursor.drop, Except.map]

theorem upTo {stop : List Char → Bool}
    (reads_on : ∀ cs ds, text = cs ++ ds → ds ≠ [] → stop (ds ++ rest) = false)
    (stops : rest = [] ∨ stop rest) :
    Reads (Scan.upTo stop : Scan ε (List Char)) text rest (· = text) := by
  intro place
  refine ⟨text, place.afterAll text, ?_, rfl⟩
  rw [outcome_upTo, cutBefore_eq_iff.mpr ⟨rfl, stops, reads_on⟩]

theorem takeWhile {q : Char → Bool} (all : ∀ c ∈ text, q c)
    (stops : ∀ c ∈ rest.head?, q c = false) :
    Reads (Scan.takeWhile q : Scan ε (List Char)) text rest (· = text) := by
  refine upTo ?_ ?_
  · rintro cs (_ | ⟨d, ds⟩) rfl ne
    · contradiction
    · simp [all d (by simp)]
  · cases rest with
    | nil => exact .inl rfl
    | cons c cs => exact .inr (by simp [stops c rfl])

theorem accept {word : String} :
    Reads (Scan.accept word : Scan ε Bool) word.toList rest (· = true) := by
  refine sees ?_
  have first : word.toList.isPrefixOf (word.toList ++ rest) = true := by
    rw [List.isPrefixOf_iff_prefix]
    exact List.prefix_append _ _
  rw [first]
  exact bind_all (skip String.length_toList) fun _ _ => pure rfl

theorem not_accept {word : String} (h : word.toList.isPrefixOf rest = false) :
    Reads (Scan.accept word : Scan ε Bool) [] rest (· = false) := by
  refine sees ?_
  rw [List.nil_append, h]
  exact pure rfl

section

variable {next : σ → Cursor → Option (Scan ε σ)} {s : σ} {Q R : σ → Prop}

theorem loop_end (good : Q s) : Reads (Scan.loop next s) [] [] Q := by
  intro place
  refine ⟨s, place, ?_, good⟩
  rw [outcome_loop]
  rfl

theorem loop_stop (stop : ∀ place, next s ⟨rest, place⟩ = none) (good : Q s) :
    Reads (Scan.loop next s) [] rest Q := by
  intro place
  refine ⟨s, place, ?_, good⟩
  rw [outcome_loop, List.nil_append, stop place]
  split <;> rfl

/-- One round of a loop, which starts with the character `c`, and the rounds behind it. -/
theorem loop_step {c : Char}
    (first : ∀ place, ∃ step, next s ⟨c :: text ++ more ++ rest, place⟩ = some step ∧
      Reads step text (more ++ rest) Q)
    (later : ∀ s', Q s' → Reads (Scan.loop next s') more rest R) :
    Reads (Scan.loop next s) (c :: text ++ more) rest R := by
  intro place
  obtain ⟨step, next_eq, reads_step⟩ := first place
  obtain ⟨s', mid, run, good⟩ := reads_step (place.after c)
  obtain ⟨s'', last, run_later, good_later⟩ := later s' good mid
  refine ⟨s'', last, ?_, good_later⟩
  have dropped : (Cursor.mk (c :: text ++ more ++ rest) place).drop 1 =
      ⟨text ++ (more ++ rest), place.after c⟩ := by
    simp [Cursor.drop, Position.afterAll]
  rw [outcome_loop, next_eq, if_neg (by simp), dropped]
  simp only [run]
  exact run_later

theorem loop_step_eq {c : Char} {s' : σ}
    (first : ∀ place, ∃ step, next s ⟨c :: text ++ more ++ rest, place⟩ = some step ∧
      Reads step text (more ++ rest) (· = s'))
    (later : Reads (Scan.loop next s') more rest R) :
    Reads (Scan.loop next s) (c :: text ++ more) rest R :=
  loop_step first fun _ same => same ▸ later

end

end Reads

end Scan

end StumpCompiler.Text
