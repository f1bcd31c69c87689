import MiniC.Proofs.IntLang.Syntax
import MiniC.Proofs.Machine.Basic

/-!
# Evaluation of the integer language

Names are bound statically: a name stands for the innermost declaration of it that was read before, where a
block, the header of a loop and a function open a scope. The variables of a function are numbered in the order
of their declarations; a declaration that is the whole body of a branch or loop belongs to the scope around.

`eval` and `exec` go from left to right with unbounded integers and division towards zero. They give nothing
if the fuel runs out, on a division by zero, if a variable is read that holds no value, or if a function ends
without `return`. Entering a block or loop takes the values of its variables away.
-/

namespace MiniC

/-- The value of an operation on integers; there is none for a division by zero. -/
def ArithOp.value? : ArithOp → Int → Int → Option Int
  | add, a, b => some (a + b)
  | sub, a, b => some (a - b)
  | mul, a, b => some (a * b)
  | div, a, b => if b = 0 then none else some (a.tdiv b)
  | mod, a, b => if b = 0 then none else some (a.tmod b)

end MiniC

namespace MiniC.IntLang

/-! ## Scopes -/

/-- A variable: of the running function, or of the program. -/
inductive Var where
  | frame (i : Nat)
  | global (i : Nat)
  deriving DecidableEq, Repr

/-- The names that are bound at a place, newest first, and the number of the next variable. -/
structure Env where
  /-- The scopes of the function around, innermost first; none among the globals. -/
  scopes : List (List (String × Nat))
  globals : List (String × Nat)
  next : Nat

namespace Env

def find? (env : Env) (x : String) : Option Var :=
  match env.scopes.findSome? (·.lookup x) with
  | some i => some (.frame i)
  | none => (env.globals.lookup x).map .global

/-- Binds a name in the innermost scope. -/
def declare (env : Env) (x : String) : Env :=
  match env.scopes with
  | scope :: rest => { env with scopes := ((x, env.next) :: scope) :: rest, next := env.next + 1 }
  | [] => { env with globals := (x, env.next) :: env.globals, next := env.next + 1 }

def opened (env : Env) : Env := { env with scopes := [] :: env.scopes }

/-- The names that are bound at the start of a function. -/
def ofFunction (globals : List (String × Nat)) (params : List String) : Env :=
  params.foldl declare ⟨[[]], globals, 0⟩

end Env

/-- The names that are bound after a statement. -/
def Stmt.bind : Stmt → Env → Env
  | .seq a b, env => b.bind (a.bind env)
  | .decl x _, env => env.declare x
  | .block s, env => { env with next := (s.bind env.opened).next }
  | .ifThen _ a, env => a.bind env
  | .ifElse _ a b, env => b.bind (a.bind env)
  | .whileLoop _ s, env => s.bind env
  | .forLoop init _ _ s, env => { env with next := (s.bind (init.bind env.opened)).next }
  | _, env => env

section

variable {env : Env} {x : String}

/-- A name is looked up inside a function. -/
def Env.inside (env : Env) : Bool := !env.scopes.isEmpty

@[simp] theorem Env.inside_opened : env.opened.inside = true := rfl

@[simp] theorem Env.inside_declare : (env.declare x).inside = env.inside := by
  obtain ⟨scopes, globals, next⟩ := env
  cases scopes <;> rfl

@[simp] theorem Env.inside_declareAll (xs : List String) : (xs.foldl declare env).inside = env.inside := by
  induction xs generalizing env with
  | nil => rfl
  | cons x xs ih => simp [ih]

@[simp] theorem Env.next_declare : (env.declare x).next = env.next + 1 := by
  obtain ⟨scopes, globals, next⟩ := env
  cases scopes <;> rfl

@[simp] theorem Env.next_opened : env.opened.next = env.next := rfl

@[simp] theorem Stmt.inside_bind (s : Stmt) : (s.bind env).inside = env.inside := by
  induction s generalizing env with
  | seq a b iha ihb => simp [Stmt.bind, iha, ihb]
  | decl x init => simp [Stmt.bind]
  | ifThen c a iha => simp [Stmt.bind, iha]
  | ifElse c a b iha ihb => simp [Stmt.bind, iha, ihb]
  | whileLoop c s ih => simp [Stmt.bind, ih]
  | _ => rfl

@[simp] theorem Env.tail_declare : (env.declare x).scopes.tail = env.scopes.tail := by
  obtain ⟨scopes, globals, next⟩ := env
  cases scopes <;> rfl

theorem Env.tail_declareAll (xs : List String) : (xs.foldl declare env).scopes.tail = env.scopes.tail := by
  induction xs generalizing env with
  | nil => rfl
  | cons x xs ih => simp [ih]

/-- A statement binds names in the innermost scope only. -/
@[simp] theorem Stmt.tail_bind (s : Stmt) : (s.bind env).scopes.tail = env.scopes.tail := by
  induction s generalizing env with
  | seq a b iha ihb => simp [Stmt.bind, iha, ihb]
  | decl x init => simp [Stmt.bind]
  | ifThen c a iha => simp [Stmt.bind, iha]
  | ifElse c a b iha ihb => simp [Stmt.bind, iha, ihb]
  | whileLoop c s ih => simp [Stmt.bind, ih]
  | _ => rfl

theorem Env.globals_declare (h : env.inside = true) : (env.declare x).globals = env.globals := by
  obtain ⟨scopes, globals, next⟩ := env
  cases scopes with
  | nil => cases h
  | cons => rfl

theorem Env.globals_declareAll (xs : List String) (h : env.inside = true) :
    (xs.foldl declare env).globals = env.globals := by
  induction xs generalizing env with
  | nil => rfl
  | cons x xs ih => rw [List.foldl_cons, ih (by simpa using h), Env.globals_declare h]

theorem Stmt.globals_bind (s : Stmt) (h : env.inside = true) : (s.bind env).globals = env.globals := by
  induction s generalizing env with
  | seq a b iha ihb => rw [Stmt.bind, ihb (by simpa using h), iha h]
  | decl x init => exact Env.globals_declare h
  | ifThen c a iha => exact iha h
  | ifElse c a b iha ihb => rw [Stmt.bind, ihb (by simpa using h), iha h]
  | whileLoop c s ih => exact ih h
  | _ => rfl

theorem Stmt.next_le_bind (s : Stmt) (env : Env) : env.next ≤ (s.bind env).next := by
  induction s generalizing env with
  | seq a b iha ihb => exact Nat.le_trans (iha env) (ihb _)
  | decl x init => simp [Stmt.bind]
  | block s ih => exact ih env.opened
  | ifThen c a iha => exact iha env
  | ifElse c a b iha ihb => exact Nat.le_trans (iha env) (ihb _)
  | whileLoop c s ih => exact ih env
  | forLoop init c it s ihi ih => exact Nat.le_trans (ihi env.opened) (ih _)
  | _ => exact Nat.le_refl _

end

/-- A function with the global names that it can use. -/
structure Closure where
  function : Function
  globals : List (String × Nat)

/-- The functions of a program, behind some global names. -/
def closures (globals : List (String × Nat)) : Program → List Closure
  | [] => []
  | .var x _ :: rest => closures ((x, globals.length) :: globals) rest
  | .function f :: rest => ⟨f, globals⟩ :: closures globals rest

/-- The number of global variables. -/
def globalsCount : Program → Nat
  | [] => 0
  | .function _ :: rest => globalsCount rest
  | .var .. :: rest => globalsCount rest + 1

/-! ## Evaluation -/

/-- What the variables hold. -/
structure Mem where
  frame : Nat → Option Int
  globals : Nat → Option Int

namespace Mem

def get (m : Mem) : Var → Option Int
  | .frame i => m.frame i
  | .global i => m.globals i

def set (m : Mem) (w : Var) (v : Option Int) : Mem :=
  match w with
  | .frame i => { m with frame := Function.update m.frame i v }
  | .global i => { m with globals := Function.update m.globals i v }

/-- The variables from a number on up to another hold nothing. -/
def clear (m : Mem) (i j : Nat) : Mem :=
  { m with frame := fun k => if i ≤ k ∧ k < j then none else m.frame k }

end Mem

/-- How a statement is left. -/
inductive Exit where
  | normal
  | brk
  | cont
  | ret (v : Int)
  deriving DecidableEq, Repr

def bump (up : Bool) (v : Int) : Int := if up then v + 1 else v - 1

mutual

def eval (fs : List Closure) : Nat → Env → Expr → Mem → Option (Int × Mem)
  | 0, _, _, _ => none
  | k + 1, env, e, m =>
    match e with
    | .int n => some (n, m)
    | .var x => do
      let v ← m.get (← env.find? x)
      return (v, m)
    | .call f args => do
      let (vs, m) ← evalArgs fs k env args m
      call fs k f vs m
    | .plus e => eval fs k env e m
    | .minus e => do
      let (v, m) ← eval fs k env e m
      return (-v, m)
    | .not e => do
      let (v, m) ← eval fs k env e m
      return ((v == 0).toInt, m)
    | .arith op l r => do
      let (a, m) ← eval fs k env l m
      let (b, m) ← eval fs k env r m
      return (← op.value? a b, m)
    | .compare op l r => do
      let (a, m) ← eval fs k env l m
      let (b, m) ← eval fs k env r m
      return ((op.holds a b).toInt, m)
    | .logic op l r => do
      let (a, m) ← eval fs k env l m
      let (b, m) ← eval fs k env r m
      return ((op.holds (a != 0) (b != 0)).toInt, m)
    | .cond c a b => do
      let (v, m) ← eval fs k env c m
      if v = 0 then eval fs k env b m else eval fs k env a m
    | .comma a b => do
      let (_, m) ← eval fs k env a m
      eval fs k env b m
    | .assign x e => do
      let w ← env.find? x
      let (v, m) ← eval fs k env e m
      return (v, m.set w (some v))
    | .step up side x => do
      let w ← env.find? x
      let v ← m.get w
      return (if side = .before then bump up v else v, m.set w (some (bump up v)))

def evalArgs (fs : List Closure) : Nat → Env → List Expr → Mem → Option (List Int × Mem)
  | 0, _, _, _ => none
  | _ + 1, _, [], m => some ([], m)
  | k + 1, env, e :: es, m => do
    let (v, m) ← eval fs k env e m
    let (vs, m) ← evalArgs fs k env es m
    return (v :: vs, m)

/-- Calls a function; it has variables of its own. -/
def call (fs : List Closure) : Nat → String → List Int → Mem → Option (Int × Mem)
  | 0, _, _, _ => none
  | k + 1, f, vs, m => do
    let g ← fs.find? (·.function.name == f)
    if vs.length = g.function.params.length then
      let (exit, m') ← exec fs k (Env.ofFunction g.globals g.function.params) g.function.body
        { m with frame := fun i => vs[i]? }
      match exit with
      | .ret v => return (v, { m with globals := m'.globals })
      | _ => none
    else none

def exec (fs : List Closure) : Nat → Env → Stmt → Mem → Option (Exit × Mem)
  | 0, _, _, _ => none
  | k + 1, env, s, m =>
    match s with
    | .skip => some (.normal, m)
    | .seq a b => do
      let (exit, m) ← exec fs k env a m
      if exit = .normal then exec fs k (a.bind env) b m else return (exit, m)
    | .expr e => do
      let (_, m) ← eval fs k env e m
      return (.normal, m)
    | .decl _ none => some (.normal, m.set (.frame env.next) (some 0))
    | .decl x (some e) => do
      let (v, m) ← eval fs k (env.declare x) e (m.set (.frame env.next) none)
      return (.normal, m.set (.frame env.next) (some v))
    | .ret e => do
      let (v, m) ← eval fs k env e m
      return (.ret v, m)
    | .brk => some (.brk, m)
    | .cont => some (.cont, m)
    | .block s => exec fs k env.opened s (m.clear env.next (s.bind env.opened).next)
    | .ifThen c a => do
      let (v, m) ← eval fs k env c m
      if v = 0 then return (.normal, m) else exec fs k env a m
    | .ifElse c a b => do
      let (v, m) ← eval fs k env c m
      if v = 0 then exec fs k (a.bind env) b m else exec fs k env a m
    | .whileLoop c s => rounds fs k env (some c) none s m
    | .forLoop init c it s => do
      let inside := init.bind env.opened
      let (exit, m) ← exec fs k env.opened init (m.clear env.next (s.bind inside).next)
      if exit = .normal then rounds fs k inside c it s m else none

/-- The rounds of a loop: the condition, the body, and what is done after each round. -/
def rounds (fs : List Closure) : Nat → Env → Option Expr → Option Expr → Stmt → Mem → Option (Exit × Mem)
  | 0, _, _, _, _, _ => none
  | k + 1, env, c, it, s, m => do
    let (v, m) ← evalOption fs k env c m
    if v = 0 then return (.normal, m)
    let (exit, m) ← exec fs k env s m
    match exit with
    | .brk => return (.normal, m)
    | .ret v => return (.ret v, m)
    | _ => do
      let (_, m) ← evalOption fs k env it m
      rounds fs k env c it s m

/-- A part of the header of a loop; without it the value is 1. -/
def evalOption (fs : List Closure) : Nat → Env → Option Expr → Mem → Option (Int × Mem)
  | 0, _, _, _ => none
  | _ + 1, _, none, m => some (1, m)
  | k + 1, env, some e, m => eval fs k env e m

end

theorem evalArgs_length {fs : List Closure} {k : Nat} {env : Env} {es : List Expr} {m m' : Mem} {vs : List Int}
    (h : evalArgs fs k env es m = some (vs, m')) : vs.length = es.length := by
  induction k generalizing es m vs with
  | zero => simp [evalArgs] at h
  | succ k ih =>
    cases es with
    | nil => simp_all [evalArgs]
    | cons e es =>
      simp only [evalArgs, bind, Option.bind_eq_some_iff, pure, Option.some.injEq, Prod.exists, Prod.mk.injEq] at h
      obtain ⟨v, m1, -, vs', m2, hes, rfl, rfl⟩ := h
      simp [ih hes]

/-- A loop is left at its end or by a result. -/
theorem rounds_exit {fs : List Closure} {k : Nat} {env : Env} {c it : Option Expr} {s : Stmt} {m m' : Mem} {exit : Exit}
    (h : rounds fs k env c it s m = some (exit, m')) : exit = .normal ∨ ∃ v, exit = .ret v := by
  induction k generalizing m with
  | zero => simp [rounds] at h
  | succ k ih =>
    simp only [rounds, bind, Option.bind_eq_some_iff, Prod.exists] at h
    obtain ⟨v, m1, -, h⟩ := h
    split at h
    · simp_all
    · simp only [Option.bind_eq_some_iff, Prod.exists] at h
      obtain ⟨exit', m2, -, h⟩ := h
      cases exit' with
      | brk => simp_all
      | ret v =>
        simp only [pure, Option.some.injEq, Prod.mk.injEq] at h
        exact .inr ⟨v, h.1.symm⟩
      | _ =>
        simp only [Option.bind_eq_some_iff, Prod.exists] at h
        obtain ⟨_, _, -, h⟩ := h
        exact ih h

/-- The value of a global; no function can be called for it. -/
def globalValue (k : Nat) (env : Env) : Option Expr → Mem → Option (Int × Mem)
  | none, m => some (0, m)
  | some e, m => eval [] k env e m

/-- Gives the globals their values, in order. -/
def startGlobals (k : Nat) (globals : List (String × Nat)) : Program → Mem → Option Mem
  | [], m => some m
  | .function _ :: rest, m => startGlobals k globals rest m
  | .var x init :: rest, m => do
    let i := globals.length
    let (v, m) ← globalValue k ⟨[], (x, i) :: globals, i + 1⟩ init m
    startGlobals k ((x, i) :: globals) rest (m.set (.global i) (some v))

/-- Runs a program: the result of its main function, and what its variables hold then. -/
def run (k : Nat) (p : Program) : Option (Int × Mem) := do
  let m ← startGlobals k [] p ⟨fun _ => none, fun _ => none⟩
  call (closures [] p) k "main" [] m

end MiniC.IntLang
