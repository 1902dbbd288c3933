import StumpCompiler.Text.Cursor

/-!
Scanners: readers that move a cursor forward and may refuse what they find. A scanner never moves
back, and its type says so, so a loop that reads at least one character each time ends by the
length of what is left.
-/

namespace StumpCompiler.Text

/-- Reads an `α` from a cursor and leaves a cursor that stands no earlier. -/
structure Scan (ε α : Type) where
  run : (c : Cursor) → Except ε (α × c.Ahead)

namespace Scan

variable {ε α β σ : Type}

def pure (a : α) : Scan ε α :=
  ⟨fun c => .ok (a, ⟨c, Nat.le_refl _⟩)⟩

def bind (x : Scan ε α) (f : α → Scan ε β) : Scan ε β :=
  ⟨fun c => match x.run c with
    | .error e => .error e
    | .ok (a, d) => match (f a).run d.val with
      | .error e => .error e
      | .ok (b, e) => .ok (b, ⟨e.val, Nat.le_trans e.property d.property⟩)⟩

instance : Monad (Scan ε) where
  pure := pure
  bind := bind

def fail (e : ε) : Scan ε α :=
  ⟨fun _ => .error e⟩

/-- The cursor itself; nothing is read. -/
def here : Scan ε Cursor :=
  ⟨fun c => .ok (c, ⟨c, Nat.le_refl _⟩)⟩

def position : Scan ε Position :=
  ⟨fun c => .ok (c.position, ⟨c, Nat.le_refl _⟩)⟩

/-- The next character, if there is one; it stays unread. -/
def peek : Scan ε (Option Char) :=
  ⟨fun c => .ok (c.rest.head?, ⟨c, Nat.le_refl _⟩)⟩

/-- The text `word` comes next; it stays unread. -/
def sees (word : String) : Scan ε Bool :=
  ⟨fun c => .ok (c.sees word, ⟨c, Nat.le_refl _⟩)⟩

/-- Passes over `n` characters. -/
def skip (n : Nat) : Scan ε Unit :=
  ⟨fun c => .ok ((), ⟨c.drop n, c.drop_le n⟩)⟩

/-- Reads up to the first place where `stop` holds of what follows, or up to the end. -/
def upTo (stop : List Char → Bool) : Scan ε (List Char) :=
  ⟨fun c =>
    match h : cutBefore stop c.rest with
    | (read, rest) =>
      .ok (read, ⟨⟨rest, c.position.afterAll read⟩, by simpa [h] using cutBefore_le stop c.rest⟩)⟩

/-- Reads the characters that satisfy `p`. -/
def takeWhile (p : Char → Bool) : Scan ε (List Char) :=
  upTo fun cs => match cs with
    | [] => true
    | c :: _ => !p c

/-- Reads `word` if it comes next, and says whether it did. -/
def accept (word : String) : Scan ε Bool := do
  if ← sees word then
    skip word.length
    return true
  return false

/-- Reads with `p`, or reads nothing where `p` refuses. -/
def attempt (p : Scan ε α) : Scan ε (Option α) :=
  ⟨fun c => match p.run c with
    | .error _ => .ok (none, ⟨c, Nat.le_refl _⟩)
    | .ok (a, d) => .ok (some a, d)⟩

/-- Reads piece by piece. In state `s`, with unread text at `c`, `next s c` says how to go on behind
the next character; where it is `none`, or at the end, the loop stops. -/
def loop (next : σ → Cursor → Option (Scan ε σ)) (s : σ) : Scan ε σ :=
  ⟨fun c => go s c⟩
where
  go (s : σ) (c : Cursor) : Except ε (σ × c.Ahead) :=
    if unread : c.rest = [] then .ok (s, ⟨c, Nat.le_refl _⟩)
    else match next s c with
      | none => .ok (s, ⟨c, Nat.le_refl _⟩)
      | some step =>
        match step.run (c.drop 1) with
        | .error e => .error e
        | .ok (s', ⟨d, hd⟩) =>
          have shorter : d.rest.length < c.rest.length :=
            Nat.lt_of_le_of_lt hd (c.drop_lt 0 unread)
          match go s' d with
          | .error e => .error e
          | .ok (t, ⟨e, he⟩) => .ok (t, ⟨e, Nat.le_trans he (Nat.le_of_lt shorter)⟩)
  termination_by c.rest.length

/-- The text that `p` reads, together with what it makes of it. -/
def withText (p : Scan ε α) : Scan ε (List Char × α) :=
  ⟨fun c => match p.run c with
    | .error e => .error e
    | .ok (a, d) => .ok ((c.rest.take (c.rest.length - d.val.rest.length), a), d)⟩

/-- A result computed apart from the text. -/
def lift (x : Except ε α) : Scan ε α :=
  ⟨fun c => match x with
    | .error e => .error e
    | .ok a => .ok (a, ⟨c, Nat.le_refl _⟩)⟩

/-- What a scanner reads from the start of a text that it reads to the end. -/
def whole (p : Scan ε α) (unread : Position → ε) (cs : List Char) : Except ε α :=
  match p.run (.ofChars cs) with
  | .error e => .error e
  | .ok (a, d) => if d.val.rest.isEmpty then .ok a else .error (unread d.val.position)

end Scan

end StumpCompiler.Text
