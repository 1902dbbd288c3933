import StumpCompiler.Proofs.Text.Scan

/-!
Scanners that do alike on two texts, wherever these stand: both refuse their text, or both read it,
with results that are related and with the same text left over. The places that go into errors and
into results are all that tells the two runs apart.
-/

namespace StumpCompiler.Text

variable {ε α α' β β' σ : Type}

/-- Both results are errors, or they are related. -/
inductive Alike (R : α → α' → Prop) : Except ε α → Except ε α' → Prop
  | ok {a : α} {b : α'} (related : R a b) : Alike R (.ok a) (.ok b)
  | error (e e' : ε) : Alike R (.error e) (.error e')

/-- What holds between the branches holds between the choices. -/
theorem rel_ite {R : α → α → Prop} {c : Prop} [Decidable c] {x y x' y' : α} (holds : c → R x y)
    (fails : ¬c → R x' y') : R (if c then x else x') (if c then y else y') := by
  by_cases h : c
  · rw [if_pos h, if_pos h]
    exact holds h
  · rw [if_neg h, if_neg h]
    exact fails h

namespace Alike

variable {R : α → α' → Prop} {S : β → β' → Prop} {x : Except ε α} {y : Except ε α'}

theorem symm {x : Except ε α} {y : Except ε α} (alike : Alike (· = ·) x y) :
    Alike (· = ·) y x := by
  cases alike with
  | ok same => exact .ok same.symm
  | error e e' => exact .error e' e

theorem bind_of_ok {f : α → Except ε β} {g : α' → Except ε β'} (first : Alike R x y)
    (next : ∀ a b, x = .ok a → R a b → Alike S (f a) (g b)) : Alike S (x >>= f) (y >>= g) := by
  cases first with
  | error e e' => exact .error e e'
  | ok related => exact next _ _ rfl related

theorem bind {f : α → Except ε β} {g : α' → Except ε β'} (first : Alike R x y)
    (next : ∀ a b, R a b → Alike S (f a) (g b)) : Alike S (x >>= f) (y >>= g) :=
  first.bind_of_ok fun a b _ => next a b

/-- A check in front, which refuses in both or in neither. -/
theorem guard {c : Prop} [Decidable c] {e e' : ε} {x y : Except ε α} {R : α → α → Prop}
    (passed : ¬c → Alike R x y) :
    Alike R (if c then .error e else x) (if c then .error e' else y) :=
  rel_ite (fun _ => .error e e') passed

theorem map {f : α → β} {g : α' → β'} (alike : Alike R x y)
    (related : ∀ a b, R a b → S (f a) (g b)) : Alike S (x.map f) (y.map g) :=
  alike.bind fun a b h => .ok (related a b h)

end Alike

namespace Scan

/-- The scanners do alike on `cs` and on `ds`. -/
def AlikeOn (R : α → α → Prop) (p q : Scan ε α) (cs ds : List Char) : Prop :=
  ∀ place place', Text.Alike (fun x y => R x.1 y.1 ∧ x.2.rest = y.2.rest)
    (p.outcome ⟨cs, place⟩) (q.outcome ⟨ds, place'⟩)

/-- The scanners do alike on every text. -/
def Alike (R : α → α → Prop) (p q : Scan ε α) : Prop :=
  ∀ cs, AlikeOn R p q cs cs

/-- What the scanner makes of a text does not depend on the place. -/
def Placeless (p : Scan ε α) : Prop :=
  Alike (· = ·) p p

variable {R : α → α → Prop} {S : β → β → Prop} {p q : Scan ε α}

theorem AlikeOn.bind {f g : α → Scan ε β} {cs ds : List Char} (first : AlikeOn R p q cs ds)
    (next : ∀ a b, R a b → Alike S (f a) (g b)) : AlikeOn S (p >>= f) (q >>= g) cs ds := by
  intro place place'
  rw [outcome_bind, outcome_bind]
  refine (first place place').bind ?_
  rintro ⟨a, rest, mid⟩ ⟨b, _, mid'⟩ ⟨related, rfl⟩
  exact next a b related rest mid mid'

/-- Both scanners look at their texts, see the same and read nothing. -/
theorem AlikeOn.look {f g : α → Scan ε β} {cs ds : List Char} {a : α}
    (first : Reads p [] cs (· = a)) (first' : Reads q [] ds (· = a))
    (next : AlikeOn S (f a) (g a) cs ds) : AlikeOn S (p >>= f) (q >>= g) cs ds := by
  intro place place'
  obtain ⟨_, mid, run, rfl⟩ := first place
  obtain ⟨_, mid', run', rfl⟩ := first' place'
  rw [List.nil_append] at run run'
  rw [outcome_bind, outcome_bind, run, run']
  exact next mid mid'

theorem AlikeOn.run {cs ds : List Char} (alike : AlikeOn R p q cs ds) (place place' : Position) :
    Text.Alike (fun x y => R x.1 y.1) (p.run ⟨cs, place⟩) (q.run ⟨ds, place'⟩) := by
  have both := alike place place'
  unfold outcome at both
  generalize p.run ⟨cs, place⟩ = x at both ⊢
  generalize q.run ⟨ds, place'⟩ = y at both ⊢
  cases x <;> cases y <;> cases both
  · exact .error _ _
  · next related => exact .ok related.1

/-- Two texts that are read to the same rest. -/
theorem Reads.alikeOn {text text' rest : List Char} {P Q : α → Prop} (reads : Reads p text rest P)
    (reads' : Reads q text' rest Q) (related : ∀ a b, P a → Q b → R a b) :
    AlikeOn R p q (text ++ rest) (text' ++ rest) := by
  intro place place'
  obtain ⟨a, behind, run, good⟩ := reads place
  obtain ⟨b, behind', run', good'⟩ := reads' place'
  rw [run, run']
  exact .ok ⟨related a b good good', rfl⟩

namespace Alike

theorem bind {f g : α → Scan ε β} (first : Alike R p q)
    (next : ∀ a b, R a b → Alike S (f a) (g b)) : Alike S (p >>= f) (q >>= g) :=
  fun cs => (first cs).bind next

theorem bind_eq {f g : α → Scan ε β} (first : Alike (· = ·) p q)
    (next : ∀ a, Alike S (f a) (g a)) : Alike S (p >>= f) (q >>= g) :=
  first.bind fun a _ same => same ▸ next a

theorem pure {a b : α} (related : R a b) : Alike R (Pure.pure a : Scan ε α) (Pure.pure b) :=
  fun _ _ _ => .ok ⟨related, rfl⟩

theorem fail (e e' : ε) : Alike R (Scan.fail e) (Scan.fail e') :=
  fun _ _ _ => .error e e'

theorem fail_bind (e e' : ε) (f g : α → Scan ε β) :
    Alike S (Scan.fail e >>= f) (Scan.fail e' >>= g) :=
  fun _ _ _ => .error e e'

theorem lift {x y : Except ε α} (related : Text.Alike R x y) :
    Alike R (Scan.lift x) (Scan.lift y) := by
  intro cs place place'
  cases related with
  | error e e' => exact .error e e'
  | ok related => exact .ok ⟨related, rfl⟩

theorem ite {c : Prop} [Decidable c] {p' q' : Scan ε α} (holds : c → Alike R p q)
    (fails : ¬c → Alike R p' q') : Alike R (if c then p else p') (if c then q else q') :=
  rel_ite holds fails

/-- A check in front, which refuses in both or in neither. -/
theorem guard {c : Prop} [Decidable c] {e e' : ε} {f g : β → Scan ε α} (passed : ¬c → Alike R p q) :
    Alike R (if c then Scan.fail e >>= f else p) (if c then Scan.fail e' >>= g else q) :=
  .ite (fun _ => .fail_bind e e' f g) passed

/-- One of two scanners, and what comes behind it. -/
theorem choice_bind {c : Prop} [Decidable c] {p' q' : Scan ε α} {f g : α → Scan ε β}
    (holds : c → Alike R p q) (fails : ¬c → Alike R p' q')
    (next : ∀ a b, R a b → Alike S (f a) (g b)) :
    Alike S (if c then p >>= f else p' >>= f) (if c then q >>= g else q' >>= g) :=
  .ite (fun h => (holds h).bind next) fun h => (fails h).bind next

/-- A scanner that only runs if a condition holds. -/
theorem ite_bind {c : Prop} [Decidable c] {p q : Scan ε Unit} {f g : Unit → Scan ε β}
    (first : Alike (· = ·) p q) (next : Alike S (f ()) (g ())) :
    Alike S (if c then p >>= f else f ()) (if c then q >>= g else g ()) :=
  .ite (fun _ => first.bind_eq fun _ => next) fun _ => next

/-! Scanners that tell where they are. -/

theorem here_bind {f g : Cursor → Scan ε α}
    (next : ∀ cs place place', Alike R (f ⟨cs, place⟩) (g ⟨cs, place'⟩)) :
    Alike R (Scan.here >>= f) (Scan.here >>= g) := by
  intro cs place place'
  rw [outcome_bind, outcome_bind]
  exact next cs place place' cs place place'

theorem position_bind {f g : Position → Scan ε α}
    (next : ∀ place place', Alike R (f place) (g place')) :
    Alike R (Scan.position >>= f) (Scan.position >>= g) := by
  intro cs place place'
  rw [outcome_bind, outcome_bind]
  exact next place place' cs place place'

/-! Scanners that read, or look only, and tell no place. -/

theorem peek : Placeless (Scan.peek : Scan ε (Option Char)) :=
  fun _ _ _ => .ok ⟨rfl, rfl⟩

theorem sees (word : String) : Placeless (Scan.sees word : Scan ε Bool) :=
  fun _ _ _ => .ok ⟨rfl, rfl⟩

theorem skip (n : ℕ) : Placeless (Scan.skip n : Scan ε Unit) :=
  fun _ _ _ => .ok ⟨rfl, rfl⟩

theorem upTo (stop : List Char → Bool) : Placeless (Scan.upTo stop : Scan ε (List Char)) := by
  intro cs place place'
  rw [outcome_upTo, outcome_upTo]
  exact .ok ⟨rfl, rfl⟩

theorem takeWhile (good : Char → Bool) : Placeless (Scan.takeWhile good : Scan ε (List Char)) :=
  upTo _

theorem accept (word : String) : Placeless (Scan.accept word : Scan ε Bool) :=
  (sees word).bind_eq fun _ => .ite (fun _ => (skip _).bind_eq fun _ => .pure rfl)
    fun _ => .pure rfl

/-- A round does alike in related states, and one run stops where the other does. -/
theorem loop {R : σ → σ → Prop} {next next' : σ → Cursor → Option (Scan ε σ)}
    (round : ∀ s t, R s t → ∀ cs place place',
      Option.Rel (Alike R) (next s ⟨cs, place⟩) (next' t ⟨cs, place'⟩))
    {s t : σ} (related : R s t) : Alike R (Scan.loop next s) (Scan.loop next' t) := by
  intro cs
  -- a round reads a character at least, so the text left over gets shorter
  induction length : cs.length using Nat.strong_induction_on generalizing s t cs with
  | _ n ih =>
    intro place place'
    rw [outcome_loop, outcome_loop]
    cases cs with
    | nil => exact .ok ⟨related, rfl⟩
    | cons c cs =>
      simp only [reduceCtorEq, if_false]
      have one := round s t related (c :: cs) place place'
      generalize next s ⟨c :: cs, place⟩ = step at one
      generalize next' t ⟨c :: cs, place'⟩ = step' at one
      cases one with
      | none => exact .ok ⟨related, rfl⟩
      | some rounds =>
        refine (rounds cs (place.after c) (place'.after c)).bind_of_ok ?_
        rintro ⟨s', rest, mid⟩ ⟨t', _, mid'⟩ run ⟨still, rfl⟩
        have shorter : rest.length < n := length ▸ Nat.lt_succ_of_le (length_le_of_outcome run)
        exact ih rest.length shorter still rest rfl mid mid'

end Alike

end Scan

end StumpCompiler.Text
