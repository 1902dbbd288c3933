import StumpCompiler.Proofs.Text.Grammar
import StumpCompiler.Toml.Quote
import StumpCompiler.Toml.Quoted

/-! Quoted texts are read back as TOML strings, in whichever of the four kinds they are written. -/

namespace StumpCompiler.Toml

open Text (Position Cursor Partial Scan)
open Text.Scan (Step Round)

variable {rest : List Char}

theorem reads_blanks {text : List Char} (all : ∀ c ∈ text, isBlank c)
    (stops : ∀ c ∈ rest.head?, isBlank c = false) : blanks.Reads text rest fun _ => True :=
  .bind_all_eq (.takeWhile all stops) (.pure trivial)

theorem reads_newline : newline.Reads ['\n'] rest (· = ()) :=
  .bind_accept (.pure rfl)

theorem refuses_newline {text : List Char} (other : ∀ c ∈ text.head?, c ≠ '\n' ∧ c ≠ '\r') :
    newline.Refuses text := by
  have first (w : String) {c : Char} {cs : List Char} (starts : w.toList = c :: cs)
      (ne : ∀ d ∈ text.head?, c ≠ d) : w.toList.isPrefixOf text = false := by
    rw [starts]
    cases text with
    | nil => rfl
    | cons d ds => simp [List.isPrefixOf, ne d rfl]
  have no_feed := first "\n" rfl fun d mem => ((other d mem).1).symm
  have no_return := first "\r\n" rfl fun d mem => ((other d mem).2).symm
  refine .bind_nothing (.not_accept no_feed) ?_
  rintro _ rfl
  exact .word no_return

/-! Single characters. -/

theorem upperHexDigit_spec {n : ℕ} (below : n < 16) :
    Text.isHexDigit (upperHexDigit n) ∧ Text.digitValue (upperHexDigit n) = n := by
  interval_cases n <;> decide

/-- What stands behind a backslash and names the character `c`. It does not look like the end of a
line. -/
structure IsEscape (more : List Char) (c : Char) : Prop where
  reads : ∀ rest, escapedChar.Reads more rest (· = c)
  same_line : ∃ d ds, more = d :: ds ∧ isBlank d = false ∧ d ≠ '\n' ∧ d ≠ '\r'

theorem isEscape_quote : IsEscape ['"'] '"' where
  reads _ := .bind_all_eq (.one rfl) (.pure rfl)
  same_line := ⟨_, _, rfl, by decide, by decide, by decide⟩

theorem isEscape_number {c : Char} (below : c.toNat < 0x80) :
    IsEscape ['u', '0', '0', upperHexDigit (c.toNat / 16), upperHexDigit (c.toNat % 16)] c where
  reads _ := by
    refine .bind_cons (.one rfl) ?_
    refine .bind_all (Q := fun ds => Text.numberOf 16 ds = c.toNat)
      (.hexDigits_four ?_ ?_) fun _ number => ?_
    · exact upperHexDigit_spec (by omega)
    · exact upperHexDigit_spec (by omega)
    · have valid : c.toNat.isValidChar := c.valid
      simp only [number, if_pos valid]
      exact .pure (Char.ofNat_toNat c)
  same_line := ⟨_, _, rfl, by decide, by decide, by decide⟩

theorem isPlain_of_not_isControl {c : Char} (h : isControl c = false) : isPlain c ∨ c = '\n' := by
  simp only [isControl, isPlain] at *
  grind

theorem escape_cases (c : Char) :
    (∃ more, escape c = '\\' :: more ∧ IsEscape more c) ∨
      escape c = [c] ∧ c ≠ '\\' ∧ (isPlain c ∨ c = '\n') := by
  unfold escape
  split_ifs with backspace tab page back backslash control
  rotate_left 5
  · have below : c.toNat < 0x80 := by
      simp only [isControl, Bool.or_eq_true, Bool.and_eq_true, decide_eq_true_eq] at control
      omega
    exact .inl ⟨_, rfl, isEscape_number below⟩
  · exact .inr ⟨rfl, backslash, isPlain_of_not_isControl (by simpa using control)⟩
  -- The other escapes have one letter behind the backslash.
  all_goals
    subst_vars
    exact .inl ⟨_, rfl, fun _ => .bind_all_eq (.one rfl) (.pure rfl),
      _, _, rfl, by decide, by decide, by decide⟩

/-! Strings between single quotes or apostrophes. -/

theorem round_basic_escape {more : List Char} {c : Char} (h : IsEscape more c) (s : Partial Char) :
    Round basicStep s ('\\' :: more) rest (s.add c) :=
  ⟨'\\', more, rfl, fun _ => ⟨_, rfl, .bind_all_eq (h.reads rest) (.pure rfl)⟩⟩

theorem round_basic {c : Char} (unbroken : c ≠ '\n') (s : Partial Char) (rest : List Char) :
    Round basicStep s (if c = '"' then ['\\', '"'] else escape c) rest (s.add c) := by
  split_ifs with quote
  · subst quote
    exact round_basic_escape isEscape_quote s
  · rcases escape_cases c with ⟨more, eq, escape⟩ | ⟨eq, backslash, plain⟩
    · rw [eq]
      exact round_basic_escape escape s
    · rw [eq]
      refine .of_pure fun place => ?_
      unfold basicStep
      split
      · contradiction
      · next h => exact absurd (List.cons.inj h).1 quote
      · next h => exact absurd (List.cons.inj h).1 backslash
      · next h =>
        obtain ⟨rfl, -⟩ := List.cons.inj h
        rw [if_pos (plain.resolve_right unbroken)]

theorem reads_basic {cs : List Char} (unbroken : '\n' ∉ cs) :
    basic.Reads (Kind.basic.body cs ++ ['"']) rest (· = cs) := by
  have reads : basic.Reads _ rest _ := .closedBy_flatMap id (c := '"')
    (fun c mem s rest => round_basic (ne_of_mem_of_not_mem mem unbroken) s rest)
    (fun _ _ => rfl) rfl
  simpa [Partial.start, Kind.body] using reads

theorem round_literal {c : Char} (plain : isPlain c) (ordinary : c ≠ '\'') (s : Partial Char)
    (rest : List Char) : Round literalStep s [c] rest (s.add c) := by
  refine .of_pure fun place => ?_
  unfold literalStep
  split
  · contradiction
  · next h => exact absurd (List.cons.inj h).1 ordinary
  · next h =>
    obtain ⟨rfl, -⟩ := List.cons.inj h
    rw [if_pos plain]

theorem reads_literal {cs : List Char} (plain : ∀ c ∈ cs, isPlain c) (ordinary : '\'' ∉ cs) :
    literal.Reads (cs ++ ['\'']) rest (· = cs) := by
  have reads : literal.Reads _ rest _ := .closedBy_flatMap id (c := '\'')
    (fun c mem s rest => round_literal (plain c mem) (ne_of_mem_of_not_mem mem ordinary) s rest)
    (fun _ _ => rfl) rfl
  simpa [Partial.start] using reads

/-! Strings between three quotes or apostrophes. -/

section

variable {q : Char} {step : Step Char}

/-- `LongBody q step run body cs`: behind `run` delimiters in a row, `body` stands for the text
`cs`. A delimiter stands for itself, and no third one follows two of them. -/
inductive LongBody (q : Char) (step : Step Char) : ℕ → List Char → List Char → Prop
  | nil {run : ℕ} (few : run ≤ 2) : LongBody q step run [] []
  | delimiter {run : ℕ} {body cs : List Char} (later : LongBody q step (run + 1) body cs) :
    LongBody q step run (q :: body) (q :: cs)
  | other {run : ℕ} {c d : Char} (more : List Char) {body cs : List Char} (few : run ≤ 2)
    (ne : d ≠ q) (round : ∀ s rest, Round step s (d :: more) rest (s.add c))
    (later : LongBody q step 0 body cs) :
    LongBody q step run (d :: more ++ body) (c :: cs)

/-- The delimiters that come next are too few to close the string, or they are all that is left in
front of the closing ones. -/
theorem LongBody.delimiters_ahead {run : ℕ} {body cs : List Char} (h : LongBody q step run body cs)
    (rest : List Char) :
    ((body ++ ([q, q, q] ++ rest)).takeWhile (· = q)).length + run ≤ 2 ∨
      ∃ j, j + run ≤ 2 ∧ body = List.replicate j q ∧ cs = List.replicate j q := by
  induction h with
  | nil few => exact .inr ⟨0, by omega, rfl, rfl⟩
  | delimiter later ih =>
    rcases ih with few | ⟨j, few, body_eq, cs_eq⟩
    · left
      rw [List.cons_append, List.takeWhile_cons_of_pos (by simp), List.length_cons]
      omega
    · exact .inr ⟨j + 1, by omega, by rw [body_eq]; rfl, by rw [cs_eq]; rfl⟩
  | other more few ne round later ih =>
    left
    simpa [ne] using few

theorem takeWhile_replicate (n : ℕ) (stops : ∀ c ∈ rest.head?, c ≠ q) :
    (List.replicate n q ++ rest).takeWhile (· = q) = List.replicate n q := by
  rw [List.takeWhile_append_of_pos (by simp)]
  cases rest with
  | nil => simp
  | cons c cs => simp [stops c rfl]

variable (delimits : ∀ s cs place, step s ⟨q :: cs, place⟩ = delimiterStep q s ⟨q :: cs, place⟩)
include delimits

theorem round_delimiter {s : Partial Char} (few : (rest.takeWhile (· = q)).length < 2) :
    Round step s [q] rest (s.add q) := by
  refine .of_pure fun place => ?_
  rw [delimits, delimiterStep, if_pos]
  rw [List.takeWhile_cons_of_pos (by simp), List.length_cons]
  omega

theorem round_delimiters {s : Partial Char} {j : ℕ} (few : j ≤ 2)
    (stops : ∀ c ∈ rest.head?, c ≠ q) :
    Round step s (List.replicate (j + 3) q) rest ⟨List.replicate j q ++ s.read, true⟩ := by
  refine ⟨q, List.replicate (j + 2) q, rfl, fun place => ?_⟩
  have run := takeWhile_replicate (j + 3) stops
  refine ⟨_, ?_, .bind_all (.skip (n := j + 3 - 1) (by simp)) fun _ _ => .pure rfl⟩
  have starts : List.replicate (j + 3) q ++ rest = q :: (List.replicate (j + 2) q ++ rest) := rfl
  rw [starts, delimits, ← starts, delimiterStep]
  simp only [run, List.length_replicate]
  rw [if_neg (by omega), if_pos (by omega)]
  rfl

theorem reads_longBody {run : ℕ} {body cs : List Char} (h : LongBody q step run body cs)
    (stops : ∀ c ∈ rest.head?, c ≠ q) {s : Partial Char} (opened : s.closed = false) :
    (Scan.closedBy step s).Reads (body ++ [q, q, q]) rest (· = s.read.reverse ++ cs) := by
  -- The reader looks ahead over all delimiters in a row. So those at the end of the text are read in
  -- one round with the closing ones, and only the others one at a time.
  induction h generalizing s with
  | nil few =>
    exact .closedBy_end (round_delimiters delimits (j := 0) (by omega) stops) opened rfl (by simp)
  | @delimiter run body cs later ih =>
    rcases later.delimiter.delimiters_ahead rest with few | ⟨j, few, body_eq, cs_eq⟩
    · have single : (((body ++ [q, q, q]) ++ rest).takeWhile (· = q)).length < 2 := by
        rw [List.cons_append, List.takeWhile_cons_of_pos (by simp), List.length_cons] at few
        rw [List.append_assoc]
        omega
      change (Scan.closedBy step s).Reads ([q] ++ (body ++ [q, q, q])) rest _
      refine .closedBy_round (round_delimiter delimits single) opened ?_
      simpa [Partial.add] using ih (s := s.add q) opened
    · have all : q :: body ++ [q, q, q] = List.replicate (j + 3) q := by
        rw [body_eq, List.replicate_add]
        rfl
      rw [all, cs_eq]
      exact .closedBy_end (round_delimiters delimits (by omega) stops) opened rfl (by simp)
  | @other run c d more body cs few ne round later ih =>
    rw [List.append_assoc]
    refine .closedBy_round (round s _) opened ?_
    simpa [Partial.add] using ih (s := s.add c) opened

end

theorem round_longBasic_escape {more : List Char} {c : Char} (h : IsEscape more c)
    (s : Partial Char) (rest : List Char) :
    Round longBasicStep s ('\\' :: more) rest (s.add c) := by
  refine ⟨'\\', more, rfl, fun _ => ⟨_, rfl, ?_⟩⟩
  obtain ⟨d, ds, eq, dark, feed, back⟩ := h.same_line
  have refuses : continuation.Refuses (more ++ rest) := by
    refine .bind_nothing (reads_blanks (by simp) (by simpa [eq] using dark)) fun _ _ => ?_
    exact .bind_first (refuses_newline (by simp [eq, feed, back]))
  refine .bind_nothing_eq (.attempt_none refuses) ?_
  exact .bind_all_eq (h.reads rest) (.pure rfl)

/-- What both kinds do with a character that stands for itself. -/
theorem plain_or_break {c : Char} (plain : isPlain c ∨ c = '\n') (s : Partial Char)
    (rest : List Char) (place : Position) :
    (if isPlain c then some (Pure.pure (s.add c)) else breakStep s ⟨c :: rest, place⟩) =
      some (Pure.pure (s.add c)) := by
  split_ifs with visible
  · rfl
  · obtain rfl := plain.resolve_left visible
    rw [breakStep, if_pos]
    simp [Cursor.sees, List.isPrefixOf]

theorem round_longBasic {c : Char} (quote : c ≠ '"') (backslash : c ≠ '\\')
    (plain : isPlain c ∨ c = '\n') (s : Partial Char) (rest : List Char) :
    Round longBasicStep s [c] rest (s.add c) := by
  refine .of_pure fun place => ?_
  unfold longBasicStep
  split
  · contradiction
  · next h => exact absurd (List.cons.inj h).1 quote
  · next h => exact absurd (List.cons.inj h).1 backslash
  · next h =>
    obtain ⟨rfl, -⟩ := List.cons.inj h
    exact plain_or_break plain s rest place

theorem round_longLiteral {c : Char} (apostrophe : c ≠ '\'') (plain : isPlain c ∨ c = '\n')
    (s : Partial Char) (rest : List Char) : Round longLiteralStep s [c] rest (s.add c) := by
  refine .of_pure fun place => ?_
  unfold longLiteralStep
  split
  · contradiction
  · next h => exact absurd (List.cons.inj h).1 apostrophe
  · next h =>
    obtain ⟨rfl, -⟩ := List.cons.inj h
    exact plain_or_break plain s rest place

theorem longBody_longBasic (cs : List Char) {run : ℕ} (few : run ≤ 2) :
    LongBody '"' longBasicStep run (longBody run cs) cs := by
  induction cs generalizing run with
  | nil => exact .nil few
  | cons c cs ih =>
    rw [longBody]
    split_ifs with quote full
    · rw [quote]
      exact .other ['"'] few (by decide) (round_longBasic_escape isEscape_quote) (ih (by omega))
    · rw [quote]
      exact .delimiter (ih (by omega))
    · rcases escape_cases c with ⟨more, eq, escape⟩ | ⟨eq, backslash, plain⟩
      · rw [eq]
        exact .other more few (by decide) (round_longBasic_escape escape) (ih (by omega))
      · rw [eq]
        exact .other [] few quote (round_longBasic quote backslash plain) (ih (by omega))

theorem longBody_longLiteral {cs : List Char} (plain : ∀ c ∈ cs, isPlain c ∨ c = '\n') {run : ℕ}
    (few : longestRun '\'' run cs ≤ 2) : LongBody '\'' longLiteralStep run cs cs := by
  induction cs generalizing run with
  | nil => exact .nil few
  | cons c cs ih =>
    rw [List.forall_mem_cons] at plain
    rw [longestRun] at few
    split_ifs at few with apostrophe
    · rw [apostrophe]
      exact .delimiter (ih plain.2 few)
    · exact .other [] (by omega) apostrophe (round_longLiteral apostrophe plain.1)
        (ih plain.2 (by omega))

/-- What comes behind the opening delimiter of a string of several lines: a line break, where the
text has one. -/
def opening (cs : List Char) : List Char :=
  if cs.contains '\n' then ['\n'] else []

theorem reads_long {q : Char} {step : Step Char} {body cs : List Char}
    (h : LongBody q step 0 body cs)
    (delimits : ∀ s cs place, step s ⟨q :: cs, place⟩ = delimiterStep q s ⟨q :: cs, place⟩)
    (same_line : '\n' ∉ cs → ∀ c ∈ (body ++ [q, q, q]).head?, c ≠ '\n' ∧ c ≠ '\r')
    (stops : ∀ c ∈ rest.head?, c ≠ q) :
    (long step).Reads (opening cs ++ (body ++ [q, q, q])) rest (· = cs) := by
  have reads := reads_longBody delimits h stops (s := .start) rfl
  rw [opening]
  split_ifs with broken
  · refine .bind_cons (.attempt_some reads_newline) ?_
    simpa [Partial.start] using reads
  · refine .bind_nothing_eq (.attempt_none (refuses_newline ?_)) ?_
    · intro c mem
      refine same_line (by simpa using broken) c ?_
      cases body <;> simpa using mem
    · simpa [Partial.start] using reads

/-- How a written character starts. -/
theorem exists_escape_eq (c : Char) :
    ∃ d more, escape c = d :: more ∧ (d = '\\' ∨ d = c ∧ (isPlain c ∨ c = '\n')) := by
  rcases escape_cases c with ⟨more, eq, -⟩ | ⟨eq, -, plain⟩
  · exact ⟨_, more, eq, .inl rfl⟩
  · exact ⟨c, [], eq, .inr ⟨rfl, plain⟩⟩

theorem ne_return {c : Char} (plain : isPlain c) : c ≠ '\r' := by
  rintro rfl
  contradiction

theorem head_longBody {cs : List Char} (unbroken : '\n' ∉ cs) :
    ∀ c ∈ (longBody 0 cs ++ ['"', '"', '"']).head?, c ≠ '\n' ∧ c ≠ '\r' := by
  cases cs with
  | nil => simp [longBody]
  | cons d ds =>
    rw [longBody]
    split_ifs with quote full
    · contradiction
    · simp
    · obtain ⟨e, more, eq, rfl | ⟨rfl, plain⟩⟩ := exists_escape_eq d
      · simp [eq]
      · have unbroken : e ≠ '\n' := by
          rintro rfl
          simp at unbroken
        simp [eq, unbroken, ne_return (plain.resolve_right unbroken)]

theorem head_longLiteral {cs : List Char} (plain : ∀ c ∈ cs, isPlain c ∨ c = '\n')
    (unbroken : '\n' ∉ cs) : ∀ c ∈ (cs ++ ['\'', '\'', '\'']).head?, c ≠ '\n' ∧ c ≠ '\r' := by
  cases cs with
  | nil => simp
  | cons d ds =>
    rw [List.mem_cons, not_or] at unbroken
    have visible := (plain d (by simp)).resolve_right (Ne.symm unbroken.1)
    simp [Ne.symm unbroken.1, ne_return visible]

/-! All four kinds. -/

/-- The texts that are read back if they are written in this kind. -/
def Kind.Suits (cs : List Char) : Kind → Prop
  | basic => '\n' ∉ cs
  | literal => (∀ c ∈ cs, isPlain c) ∧ '\'' ∉ cs
  | longBasic => True
  | longLiteral => (∀ c ∈ cs, isPlain c ∨ c = '\n') ∧ longestRun '\'' 0 cs ≤ 2

theorem le_longestRun (q : Char) (run : ℕ) (cs : List Char) : run ≤ longestRun q run cs := by
  induction cs generalizing run with
  | nil => exact Nat.le_refl run
  | cons c cs ih =>
    rw [longestRun]
    split_ifs
    · exact (Nat.le_succ run).trans (ih (run + 1))
    · exact Nat.le_max_left _ _

theorem not_mem_of_longestRun {q : Char} {cs : List Char} (h : longestRun q 0 cs = 0) : q ∉ cs := by
  induction cs with
  | nil => simp
  | cons c cs ih =>
    rw [longestRun] at h
    split_ifs at h with same
    · have counted := le_longestRun q (0 + 1) cs
      omega
    · rw [List.mem_cons, not_or]
      exact ⟨Ne.symm same, ih (by omega)⟩

theorem suits_ofText (cs : List Char) : (Kind.ofText cs).Suits cs := by
  have plain (safe : cs.any isControl = false) : ∀ c ∈ cs, isPlain c ∨ c = '\n' := by
    rw [List.any_eq_false] at safe
    exact fun c mem => isPlain_of_not_isControl (by simpa using safe c mem)
  unfold Kind.ofText
  dsimp only
  split_ifs with basic literal longBasic longLiteral broken
  all_goals
    simp only [Bool.and_eq_true, Bool.not_eq_true', decide_eq_true_eq] at *
  · simpa [Kind.Suits] using basic.2
  · obtain ⟨⟨safe, apostrophes⟩, unbroken⟩ := literal
    have unbroken : '\n' ∉ cs := by simpa using unbroken
    refine ⟨fun c mem => ?_, not_mem_of_longestRun apostrophes⟩
    exact (plain safe c mem).resolve_right (ne_of_mem_of_not_mem mem unbroken)
  · trivial
  · exact ⟨plain longLiteral.1, longLiteral.2⟩
  · trivial
  · simpa [Kind.Suits] using broken

/-- Three delimiters open a string only if the second one does not close it. -/
theorem not_isPrefixOf_three {q : Char} {body : List Char} (inside : ∀ c ∈ body.head?, c ≠ q)
    (stops : ∀ c ∈ rest.head?, c ≠ q) :
    [q, q, q].isPrefixOf (q :: (body ++ [q] ++ rest)) = false := by
  cases body with
  | nil =>
    cases rest with
    | nil => simp [List.isPrefixOf]
    | cons d ds => simp [List.isPrefixOf, Ne.symm (stops d rfl)]
  | cons c cs => simp [List.isPrefixOf, Ne.symm (inside c rfl)]

theorem head_body (cs : List Char) : ∀ c ∈ (Kind.basic.body cs).head?, c ≠ '"' := by
  cases cs with
  | nil => simp [Kind.body]
  | cons d ds =>
    simp only [Kind.body, List.flatMap_cons]
    split_ifs with quote
    · simp
    · obtain ⟨e, more, eq, rfl | ⟨rfl, -⟩⟩ := exists_escape_eq d
      · simp [eq]
      · simpa [eq] using quote

/-- Text between delimiters is read back if it suits the kind of string. -/
theorem reads_kind {k : Kind} {cs : List Char} (suits : k.Suits cs)
    (stops : ∀ c ∈ rest.head?, c ≠ '"' ∧ c ≠ '\'') :
    anyString.Reads (k.delimiter ++ (k.body cs ++ k.delimiter)) rest (· = String.ofList cs) := by
  have no_quote : ∀ c ∈ rest.head?, c ≠ '"' := fun c mem => (stops c mem).1
  have no_apostrophe : ∀ c ∈ rest.head?, c ≠ '\'' := fun c mem => (stops c mem).2
  cases k with
  | basic =>
    have single := not_isPrefixOf_three (head_body cs) no_quote
    refine .bind_not_accept single (.bind_not_accept rfl (.bind_accept ?_))
    exact .bind_all_eq (reads_basic suits) (.pure rfl)
  | literal =>
    obtain ⟨plain, ordinary⟩ := suits
    have inside (c : Char) (mem : c ∈ cs.head?) : c ≠ '\'' :=
      ne_of_mem_of_not_mem (List.mem_of_mem_head? mem) ordinary
    have single := not_isPrefixOf_three inside no_apostrophe
    refine .bind_not_accept rfl (.bind_not_accept single (.bind_not_accept rfl ?_))
    refine .bind .word fun _ _ => ?_
    exact .bind_all_eq (reads_literal plain ordinary) (.pure rfl)
  | longBasic =>
    have reads := reads_long (longBody_longBasic cs (Nat.zero_le 2)) (fun _ _ _ => rfl)
      head_longBody no_quote
    refine .bind_accept (.bind_all_eq ?_ (.pure rfl))
    exact reads.of_eq (by simp [Kind.body, opening, Kind.delimiter])
  | longLiteral =>
    obtain ⟨plain, few⟩ := suits
    have reads := reads_long (longBody_longLiteral plain few) (fun _ _ _ => rfl)
      (head_longLiteral plain) no_apostrophe
    refine .bind_not_accept rfl (.bind_accept (.bind_all_eq ?_ (.pure rfl)))
    exact reads.of_eq (by simp [Kind.body, opening, Kind.delimiter])

theorem reads_quote (s : String) (stops : ∀ c ∈ rest.head?, c ≠ '"' ∧ c ≠ '\'') :
    anyString.Reads (quote s).toList rest (· = s) := by
  have reads := reads_kind (suits_ofText s.toList) stops
  rw [String.ofList_toList] at reads
  exact reads.of_eq (by simp [quote])

end StumpCompiler.Toml
