import StumpCompiler.Proofs.Cpp.Syntax

/-! What a program of the generated kind computes. All arithmetic is that of one structure, of which
nothing is assumed but that signs of literals mean what they say. An expression is read as a number,
a truth or an index by where it stands; what has no meaning has no value. -/

namespace StumpCompiler.Cpp

structure Numbers (K : Type) where
  zero : K
  add : K → K → K
  mul : K → K → K
  neg : K → K
  less : K → K → Bool
  literal : String → K
  literal_zero : literal "0" = zero
  literal_plus : ∀ cs, isNumeral cs →
    literal (String.ofList ('+' :: cs)) = literal (String.ofList cs)
  literal_minus : ∀ cs, isNumeral cs →
    literal (String.ofList ('-' :: cs)) = neg (literal (String.ofList cs))

inductive Value (K : Type) where
  | number (v : K)
  | index (n : ℕ)
  | object (type : String)
  /-- An argument of the function, which only descriptors look at. -/
  | argument (place : ℕ)
  | array (vs : List K)

/-- The variables in scope. -/
abbrev Env (K : Type) := String → Option (Value K)

variable {K : Type}

namespace Env

def empty : Env K := fun _ => none

def set (env : Env K) (x : String) (v : Value K) : Env K :=
  fun y => if y = x then some v else env y

/-- A name is declared once. -/
def declare (env : Env K) (x : String) (v : Value K) : Option (Env K) :=
  if (env x).isSome then none else some (env.set x v)

/-- Behind the end of a scope: what was declared in it is gone. -/
def leave (outer inner : Env K) : Env K :=
  fun x => if (outer x).isSome then inner x else none

def number? (env : Env K) (x : String) : Option K :=
  match env x with
  | some (.number v) => some v
  | _ => none

def index? (env : Env K) (x : String) : Option ℕ :=
  match env x with
  | some (.index n) => some n
  | _ => none

def type? (env : Env K) (x : String) : Option String :=
  match env x with
  | some (.object type) => some type
  | _ => none

def argument? (env : Env K) (x : String) : Option ℕ :=
  match env x with
  | some (.argument place) => some place
  | _ => none

def array? (env : Env K) (x : String) : Option (List K) :=
  match env x with
  | some (.array vs) => some vs
  | _ => none

@[simp]
theorem set_self (env : Env K) (x : String) (v : Value K) : env.set x v x = some v := by
  simp [set]

theorem set_of_ne (env : Env K) {x y : String} (v : Value K) (h : y ≠ x) :
    env.set x v y = env y := by
  simp [set, h]

theorem set_set (env : Env K) (x : String) (v w : Value K) :
    (env.set x v).set x w = env.set x w := by
  funext y
  by_cases h : y = x <;> simp [set, h]

theorem declare_of_none {env : Env K} {x : String} (v : Value K) (h : env x = none) :
    env.declare x v = some (env.set x v) := by
  simp [declare, h]

/-- A scope in which nothing was declared is left as it is. -/
theorem leave_eq_self {outer inner : Env K} (h : ∀ x, outer x = none → inner x = none) :
    leave outer inner = inner := by
  funext x
  cases out : outer x with
  | none => simp [leave, out, h x out]
  | some v => simp [leave, out]

end Env

/-- The number of a place, in decimal digits. -/
def place? (s : String) : Option ℕ :=
  if s ≠ "" ∧ s.toList.all Char.isDigit then some (Nat.ofDigitChars 10 s.toList 0) else none

@[simp]
theorem place?_repr (n : ℕ) : place? n.repr = some n := by
  have digits : ∀ c ∈ Nat.toDigits 10 n, c.isDigit = true :=
    fun c hc => Nat.isDigit_of_mem_toDigits (by decide) (by decide) hc
  simpa [place?] using digits

theorem place?_toString (n : ℕ) : place? (toString n) = some n :=
  place?_repr n

section

variable (N : Numbers K) (described : String → Option K)

def Expr.index? (env : Env K) : Expr → Option ℕ
  | literal s => place? s
  | name x => env.index? x
  | _ => none

/-- The variable that an expression denotes, if it is an index. -/
def Expr.indexName? (env : Env K) : Expr → Option String
  | name x => if (env.index? x).isSome then some x else none
  | _ => none

mutual

def Expr.number? (env : Env K) : Expr → Option K
  | .literal s => some (N.literal s)
  | .name x => env.number? x
  | .element a i => do (← env.array? a)[← i.index? env]?
  | .call o f as =>
    if f = "describe" ∧ as.map env.argument? = [some 0, some 1] then (env.type? o).bind described
    else none
  | .negative e => (Expr.number? env e).map N.neg
  | .positive e => Expr.number? env e
  | .product a b => do return N.mul (← Expr.number? env a) (← Expr.number? env b)
  | .less _ _ => none
  | .choice c a b => do
    if ← Expr.truth? env c then Expr.number? env a else Expr.number? env b

def Expr.truth? (env : Env K) : Expr → Option Bool
  | .less a b => do return N.less (← Expr.number? env a) (← Expr.number? env b)
  | _ => none

end

/-- Changes the number that an expression denotes. -/
def Env.update (env : Env K) (f : K → K) : Expr → Option (Env K)
  | .name x => do return env.set x (.number (f (← env.number? x)))
  | .element a i => do
    let vs ← env.array? a
    let place ← i.index? env
    return env.set a (.array (vs.set place (f (← vs[place]?))))
  | _ => none

/-- Variables are numbers or places. -/
def Expr.start? (env : Env K) (type : String) (e : Expr) : Option (Value K) :=
  if type = "double" then (e.number? N described env).map .number
  else if type = "size_t" then (e.index? env).map .index
  else none

/-- The elements without a value of their own are zero. -/
def elements? (env : Env K) (size : String) (start : List Expr) : Option (List K) := do
  let n ← place? size
  let vs ← start.mapM (Expr.number? N described env)
  if vs.length ≤ n then return vs ++ List.replicate (n - vs.length) N.zero else none

mutual

def Statement.run : Statement → Env K → Option (Env K)
  | .object type x, env =>
    if (described type).isSome then env.declare x (.object type) else none
  | .variable type x e, env => do env.declare x (← e.start? N described env type)
  | .array type x size start, env => do
    if type = "double" ∨ type = "int" then
      env.declare x (.array (← elements? N described env size start))
    else none
  | .assign target e, env =>
    match target.indexName? env with
    | some x => do return env.set x (.index (← e.index? env))
    | none => do
      let v ← e.number? N described env
      env.update (fun _ => v) target
  | .add target e, env => do
    let v ← e.number? N described env
    env.update (N.add · v) target
  | .count x first bound body, env => do
    let first ← place? first
    let bound ← place? bound
    let inner ← env.declare x (.index first)
    let inner ← (List.range' first (bound - first)).foldlM (fun env i => do
      let env ← Statement.run body (env.set x (.index i))
      if env.index? x = some i then return env else none) inner
    return env.leave inner
  | .when test body, env => do
    if ← test.truth? N described env then return env.leave (← Statement.run body env)
    else return env
  | .block body, env => do return env.leave (← Statement.runAll body env)

def Statement.runAll : List Statement → Env K → Option (Env K)
  | [], env => some env
  | s :: ss, env => do Statement.runAll ss (← Statement.run s env)

end

@[simp]
theorem Statement.runAll_nil (env : Env K) : runAll N described [] env = some env := by
  rw [runAll]

theorem Statement.runAll_cons (s : Statement) (ss : List Statement) (env : Env K) :
    runAll N described (s :: ss) env = (s.run N described env).bind (runAll N described ss) := by
  rw [runAll]
  rfl

theorem Statement.runAll_append (ss us : List Statement) (env : Env K) :
    runAll N described (ss ++ us) env =
      (runAll N described ss env).bind (runAll N described us) := by
  induction ss generalizing env with
  | nil => simp
  | cons s ss ih =>
    rw [List.cons_append, runAll_cons, runAll_cons]
    cases s.run N described env with
    | none => rfl
    | some env => exact ih env

/-- Binds parameters, the first of which has the number `k`. -/
def Env.bind (k : ℕ) : List String → Env K → Option (Env K)
  | [], env => some env
  | x :: xs, env => do Env.bind (k + 1) xs (← env.declare x (.argument k))

/-- What a call of the function of a program returns. -/
def Program.run (p : Program) : Option K := do
  let env ← Statement.runAll N described p.tables .empty
  let env ← env.bind 0 p.parameters
  let env ← Statement.runAll N described p.body env
  p.result.number? N described env

/-- What the function `name` of a text returns. -/
def evaluate? (name text : String) : Option K := do
  let p ← Program.ofText? text
  if p.name = name then p.run N described else none

end

end StumpCompiler.Cpp
