import MiniC.Proofs.IntLang.Semantics

/-!
# Expressions with pointers

The expressions over `int` and `int *`, each with its type: values of the two types, and the places that can be
assigned to, which are variables and what a pointer points at. A variable is named by its symbol.

`eval` goes from left to right over the words of a store. A pointer is the address of a cell, and is moved in units
of the cells of an `int`. The evaluation stops on a division by zero; it is undefined if a variable holds no value
of its type, or if a pointer is followed that does not lead to a variable of type `int`.
-/

namespace MiniC.PointerLang

open Machine

/-- A type of values. -/
inductive Ty where
  | int
  | pointer
  deriving DecidableEq, Repr

/-- What an expression gives: a value, or a place that holds one. -/
inductive Form where
  | value (t : Ty)
  | place (t : Ty)
  deriving DecidableEq, Repr

inductive Expr : Form → Type
  | int (v : Int) : Expr (.value .int)
  | load (t : Ty) (v : Nat) : Expr (.value t)
  | fetch (e : Expr (.value .pointer)) : Expr (.value .int)
  | addressOf (v : Nat) : Expr (.value .pointer)
  | plus (e : Expr (.value .int)) : Expr (.value .int)
  | minus (e : Expr (.value .int)) : Expr (.value .int)
  | not (e : Expr (.value .int)) : Expr (.value .int)
  | arith (op : ArithOp) (l r : Expr (.value .int)) : Expr (.value .int)
  | compare {t : Ty} (op : CompareOp) (l r : Expr (.value t)) : Expr (.value .int)
  | logic (op : LogicOp) (l r : Expr (.value .int)) : Expr (.value .int)
  | cond {t : Ty} (c : Expr (.value .int)) (a b : Expr (.value t)) : Expr (.value t)
  | comma {t u : Ty} (a : Expr (.value t)) (b : Expr (.value u)) : Expr (.value u)
  /-- A pointer, and a number that is added to it or taken from it. -/
  | shift (up : Bool) (p : Expr (.value .pointer)) (e : Expr (.value .int)) : Expr (.value .pointer)
  /-- A number, and a pointer that it is added to. -/
  | shifted (e : Expr (.value .int)) (p : Expr (.value .pointer)) : Expr (.value .pointer)
  | assign {t : Ty} (p : Expr (.place t)) (e : Expr (.value t)) : Expr (.value t)
  | step {t : Ty} (up : Bool) (side : Side) (p : Expr (.place t)) : Expr (.value t)
  | var (t : Ty) (v : Nat) : Expr (.place t)
  | deref (e : Expr (.value .pointer)) : Expr (.place .int)

/-! ## Evaluation -/

abbrev Store := Int → Word

structure Env where
  cell : Nat → Option Int
  /-- The cells that belong to variables, with their types. -/
  vars : Int → Option Ty

/-- Why an evaluation gives no value. -/
inductive Stop where
  | zero
  | undefined
  deriving DecidableEq, Repr

/-- The number of cells of an `int`, in which pointers are counted. -/
def intCells : Int := 1

namespace Ty

def word : Ty → Int → Word
  | int, v => .int v
  | pointer, a => .address a

/-- What a step adds or takes. -/
def unit : Ty → Int
  | int => 1
  | pointer => intCells

def bump (t : Ty) (up : Bool) (v : Int) : Int := if up then v + t.unit else v - t.unit

/-- The value of a word of the type. -/
def read? : Ty → Word → Option Int
  | int, .int v => some v
  | pointer, .address a => some a
  | _, _ => none

end Ty

/-- The word of what an expression gives: a place is given by its address. -/
def Form.word : Form → Int → Word
  | value t, v => t.word v
  | place _, a => .address a

namespace Env

/-- The cell of a variable of a type. -/
def find? (env : Env) (t : Ty) (v : Nat) : Option Int := (env.cell v).filter fun a => env.vars a = some t

/-- The cell that a pointer leads to. -/
def follow? (env : Env) (a : Int) : Option Int := if env.vars a = some .int then some a else none

end Env

def defined {α : Type} : Option α → Except Stop α
  | some a => .ok a
  | none => .error .undefined

/-- The value of an operation on numbers. -/
def arithValue (op : ArithOp) (a b : Int) : Except Stop Int :=
  match op.value? a b with
  | some v => pure v
  | none => throw .zero

def eval (env : Env) : {f : Form} → Expr f → Store → Except Stop (Int × Store)
  | _, .int v, σ => pure (v, σ)
  | _, .load t v, σ => do
    let a ← defined (env.find? t v)
    let v ← defined (t.read? (σ a))
    return (v, σ)
  | _, .fetch e, σ => do
    let (a, σ) ← eval env e σ
    let a ← defined (env.follow? a)
    let v ← defined (Ty.int.read? (σ a))
    return (v, σ)
  | _, .addressOf v, σ => do
    let a ← defined (env.find? .int v)
    return (a, σ)
  | _, .plus e, σ => eval env e σ
  | _, .minus e, σ => do
    let (v, σ) ← eval env e σ
    return (-v, σ)
  | _, .not e, σ => do
    let (v, σ) ← eval env e σ
    return ((v == 0).toInt, σ)
  | _, .arith op l r, σ => do
    let (a, σ) ← eval env l σ
    let (b, σ) ← eval env r σ
    let v ← arithValue op a b
    return (v, σ)
  | _, .compare op l r, σ => do
    let (a, σ) ← eval env l σ
    let (b, σ) ← eval env r σ
    return ((op.holds a b).toInt, σ)
  | _, .logic op l r, σ => do
    let (a, σ) ← eval env l σ
    let (b, σ) ← eval env r σ
    return ((op.holds (a != 0) (b != 0)).toInt, σ)
  | _, .cond c a b, σ => do
    let (v, σ) ← eval env c σ
    if v = 0 then eval env b σ else eval env a σ
  | _, .comma a b, σ => do
    let (_, σ) ← eval env a σ
    eval env b σ
  | _, .shift up p e, σ => do
    let (a, σ) ← eval env p σ
    let (v, σ) ← eval env e σ
    return (if up then a + v * intCells else a - v * intCells, σ)
  | _, .shifted e p, σ => do
    let (v, σ) ← eval env e σ
    let (a, σ) ← eval env p σ
    return (v * intCells + a, σ)
  | _, .assign (t := t) p e, σ => do
    let (a, σ) ← eval env p σ
    let (v, σ) ← eval env e σ
    return (v, Function.update σ a (t.word v))
  | _, .step (t := t) up side p, σ => do
    let (a, σ) ← eval env p σ
    let v ← defined (t.read? (σ a))
    return (if side = .before then t.bump up v else v, Function.update σ a (t.word (t.bump up v)))
  | _, .var t v, σ => do
    let a ← defined (env.find? t v)
    return (a, σ)
  | _, .deref e, σ => do
    let (a, σ) ← eval env e σ
    let a ← defined (env.follow? a)
    return (a, σ)

section

variable {env : Env} {t : Ty} {v : Nat} {a b : Int} {w : Word}

theorem find?_eq_some : env.find? t v = some a ↔ env.cell v = some a ∧ env.vars a = some t := by
  simp [Env.find?, Option.filter_eq_some_iff]

theorem follow?_eq_some : env.follow? a = some b ↔ a = b ∧ env.vars b = some .int := by
  unfold Env.follow?
  grind

theorem read?_eq_some {v : Int} : t.read? w = some v ↔ w = t.word v := by
  cases t <;> cases w <;> simp [Ty.read?, Ty.word]

end

/-! ## What an evaluation leaves alone -/

/-- An evaluation from a store changes the cells of variables only. -/
def Spares (env : Env) (σ : Store) (m : Except Stop (Int × Store)) : Prop :=
  ∀ v σ', m = .ok (v, σ') → ∀ a, env.vars a = none → σ' a = σ a

section

variable {env : Env} {σ : Store} {m : Except Stop (Int × Store)} {g : Int × Store → Except Stop (Int × Store)}

theorem spares_pure (v : Int) : Spares env σ (pure (v, σ)) := by
  rintro _ _ h a -
  cases h
  rfl

theorem spares_update {a : Int} {t : Ty} (ha : env.vars a = some t) (v : Int) (w : Word) :
    Spares env σ (pure (v, Function.update σ a w)) := by
  rintro _ _ h b hb
  cases h
  refine Function.update_of_ne ?_ ..
  rintro rfl
  rw [ha] at hb
  cases hb

theorem Spares.bind (h : Spares env σ m) (h' : ∀ v σ', m = .ok (v, σ') → Spares env σ' (g (v, σ'))) : Spares env σ (m >>= g) := by
  intro v σ' heq a ha
  match m, h, h' with
  | .error _, _, _ => cases heq
  | .ok (u, σ1), h, h' => rw [h' u σ1 rfl v σ' heq a ha, h u σ1 rfl a ha]

theorem Spares.look {α : Type} {e : Except Stop α} {g : α → Except Stop (Int × Store)} (h : ∀ a, e = .ok a → Spares env σ (g a)) :
    Spares env σ (e >>= g) := by
  cases e with
  | error _ => intro _ _ heq; cases heq
  | ok a => exact h a rfl

/-- A place is the cell of a variable of its type. -/
theorem vars_of_place {t : Ty} (p : Expr (.place t)) {a : Int} {σ' : Store} (h : eval env p σ = .ok (a, σ')) :
    env.vars a = some t := by
  cases p with
  | var _ v =>
    rw [eval] at h
    cases hfind : env.find? t v with
    | none => simp [hfind, defined, bind, Except.bind] at h
    | some b =>
      simp only [hfind, defined, bind, Except.bind, pure, Except.pure, Except.ok.injEq, Prod.mk.injEq] at h
      exact h.1 ▸ (find?_eq_some.1 hfind).2
  | deref e =>
    rw [eval] at h
    cases he : eval env e σ with
    | error _ => simp [he, bind, Except.bind] at h
    | ok r =>
      cases hfollow : env.follow? r.1 with
      | none => simp [he, hfollow, defined, bind, Except.bind] at h
      | some b =>
        simp only [he, hfollow, defined, bind, Except.bind, pure, Except.pure, Except.ok.injEq, Prod.mk.injEq] at h
        exact h.1 ▸ (follow?_eq_some.1 hfollow).2

theorem spares_eval {f : Form} (e : Expr f) (σ : Store) : Spares env σ (eval env e σ) := by
  induction e generalizing σ with
  | int v => exact spares_pure v
  | load t v => exact .look fun a _ => .look fun v _ => spares_pure v
  | addressOf v | var t v => exact .look fun a _ => spares_pure a
  | fetch e ih => exact (ih σ).bind fun a σ' _ => .look fun a _ => .look fun v _ => spares_pure v
  | deref e ih => exact (ih σ).bind fun a σ' _ => .look fun a _ => spares_pure a
  | plus e ih => exact ih σ
  | minus e ih | not e ih => exact (ih σ).bind fun v σ' _ => spares_pure _
  | arith op l r ihl ihr => exact (ihl σ).bind fun a σ1 _ => (ihr σ1).bind fun b σ2 _ => .look fun v _ => spares_pure v
  | compare op l r ihl ihr | logic op l r ihl ihr | shift up l r ihl ihr | shifted l r ihl ihr =>
    exact (ihl σ).bind fun a σ1 _ => (ihr σ1).bind fun b σ2 _ => spares_pure _
  | cond c a b ihc iha ihb =>
    refine (ihc σ).bind fun v σ1 _ => ?_
    dsimp only
    split
    · exact ihb σ1
    · exact iha σ1
  | comma a b iha ihb => exact (iha σ).bind fun _ σ1 _ => ihb σ1
  | assign p e ihp ihe =>
    exact (ihp σ).bind fun a σ1 ha => (ihe σ1).bind fun v σ2 _ => spares_update (vars_of_place p ha) _ _
  | step up side p ihp =>
    exact (ihp σ).bind fun a σ1 ha => .look fun v _ => spares_update (vars_of_place p ha) _ _

end

end MiniC.PointerLang
