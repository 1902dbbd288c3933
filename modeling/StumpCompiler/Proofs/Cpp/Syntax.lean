import StumpCompiler.Proofs.Cpp.Token

/-! The syntax of the programs that are generated, and how it is read from tokens: declarations,
assignments, `+=`, counting loops, `if`, and expressions with `?:`, `<`, `*` and signs, which bind
tighter in this order. A parser gives what it has read and the tokens behind it. -/

namespace StumpCompiler.Cpp

inductive Expr where
  | literal (text : String)
  | name (x : String)
  | element (array : String) (place : Expr)
  | call (object method : String) (arguments : List String)
  | negative (e : Expr)
  | positive (e : Expr)
  | product (a b : Expr)
  | less (a b : Expr)
  | choice (c a b : Expr)

inductive Statement where
  | object (type x : String)
  | variable (type x : String) (start : Expr)
  /-- An array with the given number of elements, the first ones with values. -/
  | array (type x : String) (size : String) (start : List Expr)
  | assign (target value : Expr)
  | add (target value : Expr)
  /-- `x` counts from `first` up to below `bound`. -/
  | count (x first bound : String) (body : Statement)
  | when (test : Expr) (body : Statement)
  | block (body : List Statement)

/-- Tables, and one function that ends by returning a value. -/
structure Program where
  tables : List Statement
  name : String
  parameters : List String
  body : List Statement
  result : Expr

abbrev Parser (α : Type) := List Token → Option (α × List Token)

def expect (t : Token) : List Token → Option (List Token)
  | [] => none
  | u :: ts => if u = t then some ts else none

@[simp]
theorem expect_cons_self (t : Token) (ts : List Token) : expect t (t :: ts) = some ts := by
  simp [expect]

variable {α : Type}

/-- What follows the operand `left`: further operands with `operator` in front, combined from left
to right. -/
def chain (operand : Parser α) (operator : Token) (combine : α → α → α) (left : α)
    (ts : List Token) : Option (α × List Token) :=
  match expect operator ts with
  | none => some (left, ts)
  | some rest =>
    match operand rest with
    | none => none
    | some (right, rest) =>
      if rest.length < ts.length then chain operand operator combine (combine left right) rest
      else none
termination_by ts.length

/-- Items with commas between them, at least one. -/
def listed (item : Parser α) (ts : List Token) : Option (List α × List Token) :=
  match item ts with
  | none => none
  | some (a, rest) =>
    match expect (.symbol ",") rest with
    | none => some ([a], rest)
    | some rest =>
      if rest.length < ts.length then (listed item rest).map fun (as, ts) => (a :: as, ts)
      else none
termination_by ts.length

def identifier : Parser String
  | .word x :: ts => some (x, ts)
  | _ => none

/-! Expressions. `inner` reads those that stand inside others. -/

def primary (inner : Parser Expr) : Parser Expr
  | .number s :: ts => some (.literal s, ts)
  | .symbol "(" :: ts => do
    let (e, ts) ← inner ts
    return (e, ← expect (.symbol ")") ts)
  | .word x :: .symbol "[" :: ts => do
    let (e, ts) ← inner ts
    return (.element x e, ← expect (.symbol "]") ts)
  | .word x :: .symbol "." :: .word f :: .symbol "(" :: ts => do
    let (as, ts) ← listed identifier ts
    return (.call x f as, ← expect (.symbol ")") ts)
  | .word x :: ts => some (.name x, ts)
  | _ => none

def unary (inner : Parser Expr) : Parser Expr
  | .symbol "-" :: ts => (unary inner ts).map fun (e, ts) => (.negative e, ts)
  | .symbol "+" :: ts => (unary inner ts).map fun (e, ts) => (.positive e, ts)
  | ts => primary inner ts

def product (inner : Parser Expr) (ts : List Token) : Option (Expr × List Token) := do
  let (e, ts) ← unary inner ts
  chain (unary inner) (.symbol "*") .product e ts

def comparison (inner : Parser Expr) (ts : List Token) : Option (Expr × List Token) := do
  let (e, ts) ← product inner ts
  chain (product inner) (.symbol "<") .less e ts

def choice (inner : Parser Expr) (ts : List Token) : Option (Expr × List Token) := do
  let (c, ts) ← comparison inner ts
  match expect (.symbol "?") ts with
  | none => return (c, ts)
  | some ts =>
    let (a, ts) ← inner ts
    let ts ← expect (.symbol ":") ts
    let (b, ts) ← inner ts
    return (.choice c a b, ts)

/-- Expressions in which less than `depth` others stand inside each other. -/
def expressionAt : Nat → Parser Expr
  | 0 => fun _ => none
  | depth + 1 => choice (expressionAt depth)

def expression (ts : List Token) : Option (Expr × List Token) :=
  expressionAt ts.length ts

/-! Statements. -/

def declaration : Parser Statement
  | .word type :: .word x :: .symbol ";" :: ts => some (.object type x, ts)
  | .word type :: .word x :: .symbol "=" :: ts => do
    let (e, ts) ← expression ts
    return (.variable type x e, ← expect (.symbol ";") ts)
  | .word type :: .word x :: .symbol "[" :: .number n :: .symbol "]" :: .symbol "=" ::
      .symbol "\x7b" :: ts => do
    let (es, ts) ← listed expression ts
    let ts ← expect (.symbol "\x7d") ts
    return (.array type x n es, ← expect (.symbol ";") ts)
  | _ => none

/-- A new value for what an expression denotes. -/
def assignment (ts : List Token) : Option (Statement × List Token) := do
  let (target, ts) ← primary expression ts
  match ts with
  | .symbol "=" :: ts =>
    let (e, ts) ← expression ts
    return (.assign target e, ← expect (.symbol ";") ts)
  | .symbol "+=" :: ts =>
    let (e, ts) ← expression ts
    return (.add target e, ← expect (.symbol ";") ts)
  | _ => none

/-- Statements up to a closing brace or a `return`. -/
def sequence (item : Parser α) (ts : List Token) : Option (List α × List Token) :=
  if ts.head? = some (.symbol "\x7d") || ts.head? = some (.word "return") then some ([], ts)
  else match item ts with
    | none => none
    | some (a, rest) =>
      if rest.length < ts.length then (sequence item rest).map fun (as, ts) => (a :: as, ts)
      else none
termination_by ts.length

/-- A counting loop, behind `for`. -/
def loop (inner : Parser Statement) : Parser Statement
  | .symbol "(" :: .word "size_t" :: .word x :: .symbol "=" :: .number first :: .symbol ";" ::
      .word y :: .symbol "<" :: .number bound :: .symbol ";" :: .symbol "++" :: .word z ::
      .symbol ")" :: ts => do
    if x = y ∧ x = z then
      let (body, ts) ← inner ts
      return (.count x first bound body, ts)
    else none
  | _ => none

/-- What is done in one case, behind `if`. -/
def conditional (inner : Parser Statement) (ts : List Token) : Option (Statement × List Token) := do
  let (test, ts) ← expression (← expect (.symbol "(") ts)
  let (body, ts) ← inner (← expect (.symbol ")") ts)
  return (.when test body, ts)

/-- Statements, behind an opening brace. -/
def block (inner : Parser Statement) (ts : List Token) : Option (Statement × List Token) := do
  let (body, ts) ← sequence inner ts
  return (.block body, ← expect (.symbol "\x7d") ts)

def statementWith (inner : Parser Statement) : Parser Statement
  | [] => none
  | t :: ts =>
    if t = .word "for" then loop inner ts
    else if t = .word "if" then conditional inner ts
    else if t = .symbol "\x7b" then block inner ts
    else match ts with
      | .word _ :: _ => declaration (t :: ts)
      | _ => assignment (t :: ts)

/-- Statements in which less than `depth` others stand inside each other. -/
def statementAt : Nat → Parser Statement
  | 0 => fun _ => none
  | depth + 1 => statementWith (statementAt depth)

def statement (ts : List Token) : Option (Statement × List Token) :=
  statementAt ts.length ts

/-! Programs. -/

/-- A parameter with a type of one word, by reference or not. -/
def parameter : Parser String
  | .word _ :: .symbol "&" :: .word x :: ts => some (x, ts)
  | .word _ :: .word x :: ts => some (x, ts)
  | _ => none

/-- Declarations with `static` in front. -/
def tables (ts : List Token) : Option (List Statement × List Token) :=
  match expect (.word "static") ts with
  | none => some ([], ts)
  | some rest =>
    match declaration rest with
    | none => none
    | some (s, rest) =>
      if rest.length < ts.length then (tables rest).map fun (ss, ts) => (s :: ss, ts)
      else none
termination_by ts.length

/-- A function with the result type `int`. -/
def program (ts : List Token) : Option (Program × List Token) := do
  let (tables, ts) ← tables ts
  let ts ← expect (.word "int") ts
  let (name, ts) ← identifier ts
  let (parameters, ts) ← listed parameter (← expect (.symbol "(") ts)
  let ts ← expect (.symbol "\x7b") (← expect (.symbol ")") ts)
  let (body, ts) ← sequence statement ts
  let (result, ts) ← expression (← expect (.word "return") ts)
  let ts ← expect (.symbol "\x7d") (← expect (.symbol ";") ts)
  return ({ tables, name, parameters, body, result }, ts)

/-- The program of a text that is read to its end. -/
def Program.ofText? (text : String) : Option Program :=
  match (tokens? text.toList).bind program with
  | some (p, []) => some p
  | _ => none

end StumpCompiler.Cpp
