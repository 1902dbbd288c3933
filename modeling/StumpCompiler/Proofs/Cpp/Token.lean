import Mathlib

/-! Reading a program text as tokens, character by character. Blanks and directives give none; an
operator of two characters is never taken for two operators. `Lexes` says what a piece of text
gives, and pieces are put together by `Lexes.append`. -/

namespace StumpCompiler.Cpp

inductive Token where
  /-- An identifier or a keyword. -/
  | word (text : String)
  | number (text : String)
  | symbol (text : String)
  deriving DecidableEq

/-- What the characters just read may still become a part of. -/
inductive Pending where
  /-- Nothing; on a `fresh` line there was no token yet. -/
  | gap (fresh : Bool)
  | word (text : List Char)
  /-- Behind an `exponent` letter a sign belongs to the number. -/
  | number (text : List Char) (exponent : Bool)
  | dot
  | operator (c : Char)
  /-- A directive ends with its line, unless the end of the line is `escaped`. -/
  | directive (escaped : Bool)
  deriving DecidableEq

/-- The tokens so far, the last one first. -/
structure Lexer where
  pending : Pending
  done : List Token
  deriving DecidableEq

def isWordChar (c : Char) : Bool :=
  c.isAlphanum || c = '_'

def isExponent (c : Char) : Bool :=
  c = 'e' || c = 'E' || c = 'p' || c = 'P'

/-- A number goes on with `c`. -/
def extendsNumber (exponent : Bool) (c : Char) : Bool :=
  isWordChar c || c = '.' || (exponent && (c = '+' || c = '-'))

/-- Characters that may form an operator with the next one. -/
def isOperator (c : Char) : Bool :=
  "+-*<=&:".toList.contains c

def isMark (c : Char) : Bool :=
  "?()[]\x7b\x7d,;".toList.contains c

def compounds : List (List Char) :=
  ["++", "+=", "--", "-=", "->", "*=", "<=", "<<", "<:", "<%", "==", "&&", "&=", "::", ":>"].map
    String.toList

namespace Lexer

/-- Reads a character when nothing is pending. -/
def begin (fresh : Bool) (done : List Token) (c : Char) : Option Lexer :=
  if c = '\n' then some ⟨.gap true, done⟩
  else if c = ' ' || c = '\t' then some ⟨.gap fresh, done⟩
  else if c.isDigit then some ⟨.number [c] false, done⟩
  else if isWordChar c then some ⟨.word [c], done⟩
  else if c = '.' then some ⟨.dot, done⟩
  else if isOperator c then some ⟨.operator c, done⟩
  else if isMark c then some ⟨.gap false, .symbol (String.singleton c) :: done⟩
  else if c = '#' && fresh then some ⟨.directive false, done⟩
  else none

def step (s : Lexer) (c : Char) : Option Lexer :=
  match s.pending with
  | .gap fresh => begin fresh s.done c
  | .word text =>
    if isWordChar c then some ⟨.word (text ++ [c]), s.done⟩
    else begin false (.word (String.ofList text) :: s.done) c
  | .number text exponent =>
    if extendsNumber exponent c then some ⟨.number (text ++ [c]) (isExponent c), s.done⟩
    else begin false (.number (String.ofList text) :: s.done) c
  | .dot =>
    if c.isDigit then some ⟨.number ['.', c] false, s.done⟩
    else begin false (.symbol "." :: s.done) c
  | .operator o =>
    if compounds.contains [o, c] then some ⟨.gap false, .symbol (String.ofList [o, c]) :: s.done⟩
    else begin false (.symbol (String.singleton o) :: s.done) c
  | .directive escaped =>
    if c = '\n' && !escaped then some ⟨.gap true, s.done⟩
    else some ⟨.directive (c = '\\'), s.done⟩

/-- The tokens `done` were read before. -/
def after (s : Lexer) (done : List Token) : Lexer :=
  { s with done := s.done ++ done }

theorem begin_after (fresh : Bool) (ts done : List Token) (c : Char) :
    begin fresh (ts ++ done) c = (begin fresh ts c).map (after · done) := by
  unfold begin
  split_ifs <;> rfl

theorem step_after (s : Lexer) (done : List Token) (c : Char) :
    step (s.after done) c = (step s c).map (after · done) := by
  obtain ⟨pending, ts⟩ := s
  cases pending <;> simp only [step, after]
  case gap => exact begin_after ..
  all_goals
    split_ifs
    · rfl
    · first | rfl | exact begin_after false (_ :: ts) done c

theorem foldlM_step_after (s : Lexer) (done : List Token) (cs : List Char) :
    cs.foldlM step (s.after done) = (cs.foldlM step s).map (after · done) := by
  induction cs generalizing s with
  | nil => rfl
  | cons c cs ih =>
    rw [List.foldlM_cons, List.foldlM_cons, step_after]
    cases step s c with
    | none => rfl
    | some t => exact ih t

end Lexer

/-- The token that is complete if the text ends here. -/
def Pending.token? : Pending → Option Token
  | gap _ | directive _ => none
  | word text => some (.word (String.ofList text))
  | number text _ => some (.number (String.ofList text))
  | dot => some (.symbol ".")
  | operator c => some (.symbol (String.singleton c))

/-- The tokens of a text; none if a character belongs to no token. -/
def tokens? (cs : List Char) : Option (List Token) :=
  (cs.foldlM Lexer.step ⟨.gap true, []⟩).map fun s =>
    (s.pending.token?.toList ++ s.done).reverse

/-- From `p` on, the text `cs` gives the tokens `ts` and leaves `q` pending. -/
def Lexes (p : Pending) (cs : List Char) (ts : List Token) (q : Pending) : Prop :=
  ∀ done, cs.foldlM Lexer.step ⟨p, done⟩ = some ⟨q, ts.reverse ++ done⟩

namespace Lexes

theorem nil (p : Pending) : Lexes p [] [] p := fun _ => rfl

/-- Texts are read alike whatever was read before. -/
theorem of_run {p q : Pending} {cs : List Char} {ts : List Token}
    (h : cs.foldlM Lexer.step ⟨p, []⟩ = some ⟨q, ts.reverse⟩) : Lexes p cs ts q := by
  intro done
  have framed := Lexer.foldlM_step_after ⟨p, []⟩ done cs
  rw [h] at framed
  exact framed

theorem append {p q r : Pending} {cs ds : List Char} {ts us : List Token}
    (first : Lexes p cs ts q) (second : Lexes q ds us r) : Lexes p (cs ++ ds) (ts ++ us) r := by
  intro done
  rw [List.foldlM_append, first done]
  simpa using second (ts.reverse ++ done)

theorem cons {p q r : Pending} {c : Char} {cs : List Char} {ts us : List Token}
    (first : Lexes p [c] ts q) (second : Lexes q cs us r) : Lexes p (c :: cs) (ts ++ us) r :=
  first.append second

/-- A number ends in front of a character that does not extend it. -/
theorem behind_number {text : String} {exponent : Bool} {cs : List Char} {ts : List Token}
    {q : Pending} (h : Lexes (.gap false) cs ts q)
    (other : cs.head?.any fun c => !extendsNumber true c) :
    Lexes (.number text.toList exponent) cs (.number text :: ts) q := by
  intro done
  obtain ⟨c, first, stops⟩ := (Option.any_eq_true _ _).mp other
  obtain ⟨ds, rfl⟩ := List.head?_eq_some_iff.mp first
  have stops : extendsNumber exponent c = false := by
    cases exponent <;> simp_all [extendsNumber]
  have rest := h (.number text :: done)
  rw [List.foldlM_cons] at rest ⊢
  simpa [Lexer.step, stops] using rest

theorem behind_word {text : String} {cs : List Char} {ts : List Token} {q : Pending}
    (h : Lexes (.gap false) cs ts q) (other : cs.head?.any fun c => !isWordChar c) :
    Lexes (.word text.toList) cs (.word text :: ts) q := by
  intro done
  obtain ⟨c, first, stops⟩ := (Option.any_eq_true _ _).mp other
  obtain ⟨ds, rfl⟩ := List.head?_eq_some_iff.mp first
  have rest := h (.word text :: done)
  rw [List.foldlM_cons] at rest ⊢
  simpa [Lexer.step, (by simpa using stops : isWordChar c = false)] using rest

/-- Texts one after the other, each of which starts and ends where no token is pending. -/
theorem flatMap {α : Type} {p : Pending} {xs : List α} {text : α → List Char}
    {ts : α → List Token} (each : ∀ x ∈ xs, Lexes p (text x) (ts x) p) :
    Lexes p (xs.flatMap text) (xs.flatMap ts) p := by
  induction xs with
  | nil => exact nil p
  | cons x xs ih =>
    exact (each x (by simp)).append (ih fun y hy => each y (by simp [hy]))

theorem tokens?_eq {cs : List Char} {ts : List Token} {fresh : Bool}
    (h : Lexes (.gap true) cs ts (.gap fresh)) : tokens? cs = some ts := by
  simp [tokens?, h [], Pending.token?]

end Lexes

/-! Numerals: a digit, or a dot and a digit, and what may follow in a number. -/

def extendNumber (exponent : Bool) : List Char → Bool
  | [] => true
  | c :: cs => extendsNumber exponent c && extendNumber (isExponent c) cs

def isNumeral : List Char → Bool
  | [] => false
  | '.' :: d :: cs => d.isDigit && extendNumber false cs
  | d :: cs => d.isDigit && extendNumber false cs

/-- A numeral with at most one sign in front. -/
def isSigned : List Char → Bool
  | '+' :: cs => isNumeral cs
  | '-' :: cs => isNumeral cs
  | cs => isNumeral cs

/-- The sign of a literal as a token. -/
def signTokens (s : String) : List Token :=
  match s.toList with
  | '+' :: _ => [.symbol "+"]
  | '-' :: _ => [.symbol "-"]
  | _ => []

/-- A literal without its sign. -/
def unsigned (s : String) : String :=
  match s.toList with
  | '+' :: cs => String.ofList cs
  | '-' :: cs => String.ofList cs
  | _ => s

theorem lexes_extendNumber (text : List Char) {exponent : Bool} {cs : List Char}
    (h : extendNumber exponent cs) :
    ∃ e, Lexes (.number text exponent) cs [] (.number (text ++ cs) e) := by
  induction cs generalizing text exponent with
  | nil => exact ⟨exponent, fun _ => by simp⟩
  | cons c cs ih =>
    simp only [extendNumber, Bool.and_eq_true] at h
    obtain ⟨e, he⟩ := ih (text ++ [c]) h.2
    have first : Lexes (.number text exponent) [c] [] (.number (text ++ [c]) (isExponent c)) := by
      intro done
      simp [Lexer.step, h.1]
    exact ⟨e, by simpa using first.cons he⟩

theorem lexes_digit {d : Char} (h : d.isDigit) (fresh : Bool) :
    Lexes (.gap fresh) [d] [] (.number [d] false) := by
  intro done
  have not_newline : d ≠ '\n' := by rintro rfl; simp at h
  have not_blank : d ≠ ' ' ∧ d ≠ '\t' := by constructor <;> (rintro rfl; simp at h)
  simp [Lexer.step, Lexer.begin, h, not_newline, not_blank]

theorem lexes_dot_digit {d : Char} (h : d.isDigit) (fresh : Bool) :
    Lexes (.gap fresh) ['.', d] [] (.number ['.', d] false) := by
  intro done
  simp [Lexer.step, Lexer.begin, isWordChar, h]

theorem lexes_numeral {cs : List Char} (h : isNumeral cs) (fresh : Bool) :
    ∃ e, Lexes (.gap fresh) cs [] (.number cs e) := by
  unfold isNumeral at h
  split at h
  · simp at h
  · next d cs =>
    simp only [Bool.and_eq_true] at h
    obtain ⟨e, rest⟩ := lexes_extendNumber ['.', d] h.2
    exact ⟨e, (lexes_dot_digit h.1 fresh).append rest⟩
  · next d cs _ =>
    simp only [Bool.and_eq_true] at h
    obtain ⟨e, rest⟩ := lexes_extendNumber [d] h.2
    exact ⟨e, (lexes_digit h.1 fresh).append rest⟩

/-- A numeral does not start with a character that a sign could form an operator with. -/
theorem lone_sign {c d : Char} {cs : List Char} (h : isNumeral (d :: cs)) :
    [c, d] ∉ compounds := by
  have start : d = '.' ∨ d.isDigit := by
    unfold isNumeral at h
    split at h <;> simp_all
  rcases start with rfl | digit
  · simp [compounds]
  · have ne : ∀ e : Char, ¬ e.isDigit → d ≠ e := fun e he eq => he (eq ▸ digit)
    simp [compounds, ne '+' (by decide), ne '=' (by decide), ne '-' (by decide),
      ne '>' (by decide), ne '<' (by decide), ne ':' (by decide), ne '%' (by decide),
      ne '&' (by decide)]

/-- A sign in front of a numeral is a token of its own. -/
theorem lexes_sign {c : Char} {cs : List Char} (sign : c = '+' ∨ c = '-') (h : isNumeral cs)
    (fresh : Bool) :
    ∃ e, Lexes (.gap fresh) (c :: cs) [.symbol (String.singleton c)] (.number cs e) := by
  obtain ⟨e, rest⟩ := lexes_numeral h false
  refine ⟨e, fun done => ?_⟩
  have first : Lexer.step ⟨.gap fresh, done⟩ c = some ⟨.operator c, done⟩ := by
    rcases sign with rfl | rfl <;> rfl
  have behind := rest (.symbol (String.singleton c) :: done)
  cases cs with
  | nil => simp [isNumeral] at h
  | cons d cs =>
    have lone := lone_sign (c := c) h
    rw [List.foldlM_cons, first]
    simpa [List.foldlM_cons, Lexer.step, lone] using behind

theorem lexes_signed {s : String} (h : isSigned s.toList) (fresh : Bool) :
    ∃ e, Lexes (.gap fresh) s.toList (signTokens s) (.number (unsigned s).toList e) := by
  unfold isSigned at h
  unfold signTokens unsigned
  split at h
  · next cs chars =>
    simpa [chars] using lexes_sign (.inl rfl) h fresh
  · next cs chars =>
    simpa [chars] using lexes_sign (.inr rfl) h fresh
  · exact lexes_numeral h fresh

theorem extendNumber_of_digits {cs : List Char} (h : ∀ c ∈ cs, c.isDigit) (exponent : Bool) :
    extendNumber exponent cs := by
  induction cs generalizing exponent with
  | nil => rfl
  | cons c cs ih =>
    have digit : c.isDigit := h c (by simp)
    have rest := ih (fun d hd => h d (by simp [hd])) (isExponent c)
    simp [extendNumber, extendsNumber, isWordChar, Char.isAlphanum, digit, rest]

theorem isNumeral_of_digits {cs : List Char} (ne : cs ≠ []) (h : ∀ c ∈ cs, c.isDigit) :
    isNumeral cs := by
  cases cs with
  | nil => contradiction
  | cons d cs =>
    have digit : d.isDigit := h d (by simp)
    have rest : extendNumber false cs :=
      extendNumber_of_digits (fun c hc => h c (by simp [hc])) false
    unfold isNumeral
    split
    · contradiction
    · next eq => simp_all
    · next eq => simp_all

theorem isNumeral_toString (n : Nat) : isNumeral (toString n).toList := by
  rw [Nat.toString_eq_repr, Nat.toList_repr]
  exact isNumeral_of_digits Nat.toDigits_ne_nil fun c hc =>
    Nat.isDigit_of_mem_toDigits (by decide) (by decide) hc

theorem lexes_word (text : List Char) {cs : List Char} (h : ∀ c ∈ cs, isWordChar c) :
    Lexes (.word text) cs [] (.word (text ++ cs)) := by
  induction cs generalizing text with
  | nil => exact fun _ => by simp
  | cons c cs ih =>
    have first : Lexes (.word text) [c] [] (.word (text ++ [c])) := by
      intro done
      simp [Lexer.step, h c (by simp)]
    simpa using first.cons (ih (text ++ [c]) fun d hd => h d (by simp [hd]))

/-- The rest of the line of a directive gives no token. -/
theorem lexes_directive {cs : List Char} (h : '\n' ∉ cs) (escaped : Bool) :
    ∃ e, Lexes (.directive escaped) cs [] (.directive e) := by
  induction cs generalizing escaped with
  | nil => exact ⟨escaped, .nil _⟩
  | cons c cs ih =>
    simp only [List.mem_cons, not_or] at h
    obtain ⟨e, rest⟩ := ih h.2 (c = '\\')
    have first : Lexes (.directive escaped) [c] [] (.directive (c = '\\')) := by
      intro done
      simp [Lexer.step, Ne.symm h.1]
    exact ⟨e, first.cons rest⟩

end StumpCompiler.Cpp
