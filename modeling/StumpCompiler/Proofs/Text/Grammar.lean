import StumpCompiler.Proofs.Except
import StumpCompiler.Proofs.Text.Scan
import StumpCompiler.Text.Grammar

/-! What the scanners for grammars read, and which texts they refuse. -/

namespace StumpCompiler.Text.Scan

variable {α β ε : Type} {text more rest : List Char}

theorem run_of_outcome {p : Scan ε α} {c d : Cursor} {a : α} (h : p.outcome c = .ok (a, d)) :
    ∃ ahead : c.Ahead, p.run c = .ok (a, ahead) ∧ ahead.val = d := by
  obtain ⟨⟨_, ahead⟩, run, same⟩ := map_eq_ok_iff.mp h
  cases same
  exact ⟨ahead, run, rfl⟩

theorem whole_eq_ok {p : Scan ε α} {unread : Position → ε} {a : α}
    (h : Reads p text [] (· = a)) : whole p unread text = .ok a := by
  obtain ⟨_, behind, outcome, rfl⟩ := h .start
  rw [List.append_nil] at outcome
  obtain ⟨ahead, run, ends⟩ := run_of_outcome outcome
  have run : p.run (.ofChars text) = .ok (_, ahead) := run
  rw [whole, run]
  simp [ends]

namespace Reads

section

variable {p : Scan ε α} {a : α} {c : Char} {w : String} {R : β → Prop}

theorem bind_nothing_eq {f : α → Scan ε β} (first : Reads p [] (text ++ rest) (· = a))
    (next : Reads (f a) text rest R) : Reads (p >>= f) text rest R :=
  bind_eq first next

/-- The first scanner reads one character. -/
theorem bind_cons {f : α → Scan ε β} (first : Reads p [c] (text ++ rest) (· = a))
    (next : Reads (f a) text rest R) : Reads (p >>= f) (c :: text) rest R :=
  bind_eq first next

theorem bind_skip {f : Unit → Scan ε β} (next : Reads (f ()) text rest R) :
    Reads (Scan.skip 1 >>= f) (c :: text) rest R := by
  have one : (Scan.skip 1 : Scan ε Unit).Reads [c] (text ++ rest) fun _ => True := skip rfl
  exact bind one fun _ _ => next

theorem bind_accept {f : Bool → Scan ε β} (next : Reads (f true) text rest R) :
    Reads (Scan.accept w >>= f) (w.toList ++ text) rest R :=
  bind_eq accept next

theorem bind_not_accept {f : Bool → Scan ε β} (absent : w.toList.isPrefixOf (text ++ rest) = false)
    (next : Reads (f false) text rest R) : Reads (Scan.accept w >>= f) text rest R :=
  bind_nothing_eq (not_accept absent) next

end

theorem one {p : Char → Bool} {c : Char} (h : p c) : (Scan.one p).Reads [c] rest (· = c) := by
  refine peek ?_
  simp only [List.cons_append, List.head?_cons, h, if_true]
  exact bind_all (skip rfl) fun _ _ => pure rfl

theorem word {w : String} : (Scan.word w).Reads w.toList rest fun _ => True :=
  bind_all_eq accept (pure trivial)

theorem hexDigits {ds : List Char} {n : ℕ} (digits : ∀ d ∈ ds, isHexDigit d)
    (length : ds.length = n) : (Scan.hexDigits n).Reads ds rest (· = ds) := by
  subst length
  induction ds with
  | nil => exact pure rfl
  | cons d ds ih =>
    rw [List.forall_mem_cons] at digits
    exact bind_cons (one digits.1) (bind_all_eq (ih digits.2) (pure rfl))

/-- A number below 256, with two zeros in front. -/
theorem hexDigits_four {n : ℕ} {high low : Char}
    (first : isHexDigit high ∧ digitValue high = n / 16)
    (second : isHexDigit low ∧ digitValue low = n % 16) :
    (Scan.hexDigits 4).Reads ['0', '0', high, low] rest fun ds => numberOf 16 ds = n := by
  have zero : isHexDigit '0' ∧ digitValue '0' = 0 := by decide
  have digits : ∀ d ∈ ['0', '0', high, low], isHexDigit d := by
    simp only [List.forall_mem_cons]
    exact ⟨zero.1, zero.1, first.1, second.1, by simp⟩
  have number : numberOf 16 ['0', '0', high, low] = n := by
    simp only [numberOf, List.foldl, zero.2, first.2, second.2]
    omega
  intro place
  obtain ⟨_, behind, run, rfl⟩ := hexDigits digits rfl place
  exact ⟨_, behind, run, number⟩

end Reads

/-! Refused texts. -/

/-- The scanner refuses the text. -/
def Refuses (p : Scan ε α) (text : List Char) : Prop :=
  ∀ place, ∃ e, p.outcome ⟨text, place⟩ = .error e

namespace Refuses

theorem bind {p : Scan ε α} {f : α → Scan ε β} {Q : α → Prop}
    (first : p.Reads text rest Q) (next : ∀ a, Q a → (f a).Refuses rest) :
    (p >>= f).Refuses (text ++ rest) := by
  intro place
  obtain ⟨a, mid, run, good⟩ := first place
  obtain ⟨e, refused⟩ := next a good mid
  exact ⟨e, by rw [outcome_bind, run]; exact refused⟩

theorem bind_nothing {p : Scan ε α} {f : α → Scan ε β} {Q : α → Prop}
    (first : p.Reads [] text Q) (next : ∀ a, Q a → (f a).Refuses text) : (p >>= f).Refuses text :=
  bind first next

theorem bind_first {p : Scan ε α} {f : α → Scan ε β} (first : p.Refuses text) :
    (p >>= f).Refuses text := by
  intro place
  obtain ⟨e, refused⟩ := first place
  exact ⟨e, by rw [outcome_bind, refused]; rfl⟩

theorem refuse : (Scan.refuse : Scan Position α).Refuses text :=
  fun place => ⟨place, rfl⟩

theorem word {w : String} (other : w.toList.isPrefixOf text = false) :
    (Scan.word w).Refuses text :=
  bind (Reads.not_accept other) fun _ same => same ▸ refuse

end Refuses

theorem Reads.attempt_none {p : Scan ε α} (h : p.Refuses rest) :
    (attempt p : Scan ε (Option α)).Reads [] rest (· = none) := by
  intro place
  obtain ⟨e, refused⟩ := h place
  refine ⟨none, place, ?_, rfl⟩
  rw [outcome] at refused
  cases run : p.run ⟨rest, place⟩ with
  | error e' => simp [outcome, attempt, run, Except.map]
  | ok x => simp [run, Except.map] at refused

theorem Reads.attempt_some {p : Scan ε α} {a : α} (h : p.Reads text rest (· = a)) :
    (attempt p : Scan ε (Option α)).Reads text rest (· = some a) := by
  intro place
  obtain ⟨_, behind, read, rfl⟩ := h place
  obtain ⟨ahead, run, ends⟩ := run_of_outcome read
  exact ⟨some _, behind, by simp [outcome, attempt, run, Except.map, ends], rfl⟩

/-! Lists and strings, part by part. -/

/-- How a list or a string is read on, behind the next character. -/
abbrev Step (α : Type) : Type :=
  Partial α → Cursor → Option (Scan Position (Partial α))

section

variable {step : Step α} {s : Partial α} {Q : List α → Prop}

/-- In state `s`, the first round reads exactly `text`, in front of `rest`, and leads to `s'`. -/
def Round (step : Step α) (s : Partial α) (text rest : List Char) (s' : Partial α) : Prop :=
  ∃ c tail, text = c :: tail ∧ ∀ place, ∃ scan, step s ⟨text ++ rest, place⟩ = some scan ∧
    scan.Reads tail rest (· = s')

/-- A round that reads one character and looks at no other. -/
theorem Round.of_pure {c : Char} {s' : Partial α}
    (h : ∀ place, step s ⟨c :: rest, place⟩ = some (Pure.pure s')) : Round step s [c] rest s' :=
  ⟨c, [], rfl, fun place => ⟨_, h place, Reads.pure rfl⟩⟩

theorem Reads.closedBy_round {s' : Partial α} (first : Round step s text (more ++ rest) s')
    (opened : s.closed = false) (later : (closedBy step s').Reads more rest Q) :
    (closedBy step s).Reads (text ++ more) rest Q := by
  obtain ⟨c, tail, rfl, first⟩ := first
  intro place
  obtain ⟨scan, round, reads⟩ := first place
  obtain ⟨_, mid, run, rfl⟩ := reads (place.after c)
  obtain ⟨as, behind, run_later, good⟩ := later mid
  refine ⟨as, behind, ?_, good⟩
  have dropped : (Cursor.mk (c :: tail ++ (more ++ rest)) place).drop 1 =
      ⟨tail ++ (more ++ rest), place.after c⟩ := by
    simp [Cursor.drop, Position.afterAll]
  rw [closedBy, outcome_bind, List.append_assoc, outcome_loop, if_neg (by simp)]
  simp only [opened, Bool.false_eq_true, if_false, round, dropped, run]
  rw [closedBy, outcome_bind] at run_later
  exact run_later

theorem Reads.closedBy_closed (closed : s.closed) (good : Q s.read.reverse) :
    (closedBy step s).Reads [] rest Q := by
  refine bind_nothing (loop_stop (Q := (· = s)) (fun _ => by simp [closed]) rfl) ?_
  rintro _ rfl
  rw [if_pos closed]
  exact pure good

/-- The last round. -/
theorem Reads.closedBy_end {s' : Partial α} (last : Round step s text rest s')
    (opened : s.closed = false) (closed : s'.closed) (good : Q s'.read.reverse) :
    (closedBy step s).Reads text rest Q := by
  have all : (closedBy step s).Reads (text ++ []) rest Q :=
    closedBy_round last opened (closedBy_closed closed good)
  rwa [List.append_nil] at all

theorem Reads.closedBy_close {c : Char}
    (closes : ∀ place, step s ⟨c :: rest, place⟩ = some (Pure.pure s.close))
    (opened : s.closed = false) (good : Q s.read.reverse) :
    (closedBy step s).Reads [c] rest Q :=
  closedBy_end (.of_pure closes) opened rfl good

/-- A string whose characters are read one at a time, whatever follows, up to one that closes it. -/
theorem Reads.closedBy_flatMap {written : β → List Char} (part : β → α) {xs : List β} {c : Char}
    (parts : ∀ x ∈ xs, ∀ s rest, Round step s (written x) rest (s.add (part x)))
    (closes : ∀ s place, step s ⟨c :: rest, place⟩ = some (Pure.pure s.close))
    (opened : s.closed = false) :
    (closedBy step s).Reads (xs.flatMap written ++ [c]) rest
      (· = s.read.reverse ++ xs.map part) := by
  induction xs generalizing s with
  | nil => exact closedBy_close (closes s) opened (by simp)
  | cons x xs ih =>
    rw [List.forall_mem_cons] at parts
    rw [List.flatMap_cons, List.append_assoc]
    refine closedBy_round (parts.1 s _) opened ?_
    have later := ih (s := s.add (part x)) parts.2 opened
    simpa [Partial.add] using later

end

end StumpCompiler.Text.Scan
