import MiniC.Datum
import MiniC.Place

/-!
# Scripts

A script is a row of steps, each a name with arguments, that are run one after the other on a state. `Fn` makes a step
of a function: its arguments are read by `Arg`, and its result is shown as data. Objects that steps make are kept
in a `Pool` and named by their numbers. A step that fails keeps what it did before.
-/

namespace MiniC.Script

variable {α β σ τ : Type}

abbrev Step (σ : Type) := ExceptT Datum (StateM σ)

def fail (e : Fault) : Step σ α := throw (.fault e)

def lift (r : Except Fault α) : Step σ α := ExceptT.mk (pure (r.mapError Datum.fault))

def put (s : σ) : Step σ Unit := set s

class Arg (σ α : Type) where
  arg : Datum → Step σ α

export Arg (arg)

instance : Arg σ Datum := ⟨pure⟩
instance : Arg σ String := ⟨fun
  | .word s => pure s
  | _ => fail .unsuitable⟩
instance : Arg σ Int := ⟨fun
  | .number n 0 => pure n
  | .flag b => pure (Int.ofNat b.toNat)
  | _ => fail .unsuitable⟩
instance : Arg σ Nat := ⟨fun a => return (← arg a : Int).toNat⟩
instance : Arg σ Bool := ⟨fun a => pure a.isTrue⟩
instance [Arg σ α] : Arg σ (Option α) := ⟨fun
  | .nothing => pure none
  | a => some <$> arg a⟩
instance [Arg σ α] : Arg σ (List α) := ⟨fun
  | .row as => as.mapM arg
  | _ => fail .unsuitable⟩
instance [Arg σ α] [Arg σ β] : Arg σ (α × β) := ⟨fun
  | .row [a, b] => return (← arg a, ← arg b)
  | _ => fail .malformed⟩

def need [Arg σ α] (r : Datum) (key : String) : Step σ α := (r.get? key).elim (fail .unknownKey) arg

def opt [Arg σ α] (r : Datum) (key : String) (default : α) : Step σ α := (r.get? key).elim (pure default) arg

def fieldsOf [Arg σ α] (r : Datum) (key : String) : Step σ (List (String × α)) :=
  match r.get? key with
  | some (.record fields) => fields.mapM fun (k, v) => return (k, ← arg v)
  | _ => pure []

/-- Objects of a state that steps name by their numbers. -/
class Pool (σ α : Type) where
  all : σ → Array α
  push : α → σ → σ

instance (priority := high) [Pool σ α] : Arg σ α := ⟨fun a => do lift (entryAt (Pool.all (← get)) (← arg a))⟩
instance : Pool (Array α) α := ⟨id, fun a as => as.push a⟩

/-- A result that becomes an object of the state. -/
structure New (α : Type) where
  new : α

/-- A function or an action that takes its arguments from a step. -/
class Fn (σ φ : Type) where
  call : φ → List Datum → Step σ Datum

instance (priority := low) [ToDatum α] : Fn σ α := ⟨fun a _ => pure (datum a)⟩
instance [Pool σ α] [ToDatum α] : Fn σ (New α) := ⟨fun a _ => do
  modify (Pool.push a.new)
  return datum a.new⟩
instance [Fn σ α] : Fn σ (Step σ α) := ⟨fun m as => do Fn.call (← m) as⟩
instance [Fn σ α] : Fn σ (Except Fault α) := ⟨fun r as => do Fn.call (← lift r) as⟩
instance [Fn σ α] : Fn σ (ExceptT Fault (StateM σ) α) := ⟨fun m as => do
  Fn.call (← ExceptT.mk (return (← m.run).mapError Datum.fault)) as⟩
instance [Arg σ α] [Fn σ β] : Fn σ (α → β) := ⟨fun f as => match as with
  | a :: as => do Fn.call (f (← arg a)) as
  | [] => fail .unsuitable⟩
instance [Arg σ α] [Fn σ β] : Fn σ (Option α → β) := ⟨fun f as => match as with
  | a :: as => do Fn.call (f (← arg a)) as
  | [] => Fn.call (f none) []⟩

abbrev Command (σ : Type) := List Datum → Step σ Datum

def go {φ : Type} [Fn σ φ] (f : φ) : Command σ := Fn.call f

def on [Arg σ α] [ToDatum β] (f : α → Step σ β) : Command σ := go f

def rest {φ : Type} [Fn σ φ] (f : φ) : Command σ := fun as => go f [.row as]

def unknown : Command σ := fun _ => fail .missing

/-- Runs the steps of a request. Each is shown by `out`, with the states before and after it. -/
def runWith (out : σ → σ → Except Datum Datum → Datum) (request : Datum) (s : σ) (command : σ → String → Command σ) :
    Step τ Datum := do
  let steps : List (List Datum) ← opt request "steps" []
  let (shown, _) ← steps.foldlM (fun ((shown, s) : Array Datum × σ) step =>
    match step with
    | .word name :: args =>
      let (r, t) := (command s name args).run.run s
      return (shown.push (out s t r), t)
    | _ => fail .malformed) (#[], s)
  return datum shown

def run (request : Datum) (s : σ) (command : σ → String → Command σ) : Step τ Datum :=
  runWith (fun _ _ => datum) request s command

def printing (printed : List String) (r : Except Datum Datum) : Datum :=
  match printed, r with
  | [], r => datum r
  | _, .ok a => .record [("result", a), field "printed" printed]
  | _, .error e => e.extend [field "printed" printed]

end MiniC.Script
