import Mathlib.Logic.Function.Basic
import MiniC.Code.Instr

/-!
# The stack machine

The machine keeps typed words in a store that is used as a stack: `sp` is its topmost cell, `mp` the frame of
the running function, `pc` the next instruction. The first five cells of a frame are the result, the static
link (the frame of the function around it), the frame and the top of the caller, and the return address.

Each instruction checks the types of the words it works on, and an address it stores to or loads from must be
on the stack. A label stands for the instruction behind it and takes no room. Numbers are unbounded. There is
no arithmetic on reals: an instruction that needs it faults.
-/

namespace MiniC.Machine

/-- What a cell of the store holds. -/
inductive Word where
  | int (n : Int)
  | address (a : Int)
  | bool (b : Bool)
  | char (code : Int)
  | real (x : Binary64)
  | empty
  deriving DecidableEq, Repr, Inhabited

namespace Word

def cell? : Word → Option Cell
  | int _ => some .int
  | address _ => some .address
  | bool _ => some .bool
  | char _ => some .char
  | real _ => some .real
  | empty => none

def ordinal? : Word → Option Int
  | int n => some n
  | address a => some a
  | bool b => some b.toInt
  | char c => some c
  | _ => none

/-- The word of a type with a number. -/
def ofOrdinal? : Cell → Int → Option Word
  | .int, n => some (int n)
  | .address, n => some (address n)
  | .bool, n => some (bool (n != 0))
  | .char, n => some (char n)
  | .real, _ => none

end Word

/-- The character that is written between apostrophes. -/
def characterOf? (text : String) : Option Int :=
  match text.toList with
  | ['\'', '\\', 'n', '\''] => some 10
  | ['\'', '\\', 't', '\''] => some 9
  | ['\'', '\\', 'v', '\''] => some 11
  | ['\'', '\\', 'b', '\''] => some 8
  | ['\'', '\\', 'r', '\''] => some 13
  | ['\'', '\\', 'a', '\''] => some 7
  | ['\'', c, '\''] => some c.toNat
  | _ => none

/-- The word that a constant of a type stands for. -/
def constant? : Cell → Constant → Option Word
  | .bool, .truth => some (.bool true)
  | .bool, _ => none
  | .real, .places x | .real, .digits x => some (.real x)
  | cell, .number n => Word.ofOrdinal? cell n
  | .char, .char code | .char, .quoted code => some (.char code)
  | .char, .written text => (characterOf? text).map .char
  | _, _ => none

def arith? : MachineOp → Int → Int → Option Int
  | .add, a, b => some (a + b)
  | .sub, a, b => some (a - b)
  | .mul, a, b => some (a * b)
  | .div, a, b => if b = 0 then none else some (a.tdiv b)

/-- Arithmetic on words; of two characters or truth values the left one stays. -/
def arithWord? (op : MachineOp) (cell : Cell) (l r : Word) : Option Word :=
  match cell, l, r with
  | .int, .int a, .int b => (arith? op a b).map .int
  | .address, .address a, .address b => (arith? op a b).map .address
  | .char, .char a, .char _ => some (.char a)
  | .bool, .bool a, .bool _ => some (.bool a)
  | _, _, _ => none

end MiniC.Machine

namespace MiniC

def CompareOp.holds : CompareOp → Int → Int → Bool
  | lt, a, b => a < b
  | gt, a, b => b < a
  | le, a, b => a ≤ b
  | ge, a, b => b ≤ a
  | eq, a, b => a = b
  | ne, a, b => a ≠ b

def LogicOp.holds : LogicOp → Bool → Bool → Bool
  | conj, a, b => a && b
  | disj, a, b => a || b

end MiniC

namespace MiniC.Machine

structure State where
  store : Int → Word := fun _ => .empty
  sp : Int := -1
  mp : Int := 0
  ep : Int := 0
  pc : Nat := 0
  /-- What is left to read, and what was written, last first. -/
  input : List Word := []
  output : List Word := []

namespace State

def top (s : State) : Word := s.store s.sp

/-- Puts a word on the stack in the place of its topmost words. -/
def replace (n : Int) (w : Word) (s : State) : State :=
  { s with store := Function.update s.store (s.sp - n + 1) w, sp := s.sp - n + 1, pc := s.pc + 1 }

def push (w : Word) (s : State) : State := s.replace 0 w

def pop (n : Int) (s : State) : State := { s with sp := s.sp - n, pc := s.pc + 1 }

/-- Stores a word and takes words from the stack. -/
def storeAt (a : Int) (w : Word) (n : Int) (s : State) : State :=
  { s with store := Function.update s.store a w, sp := s.sp - n, pc := s.pc + 1 }

end State

/-- The frame some levels outwards from a frame: the static links are followed. -/
def base? (s : State) : Nat → Int → Option Int
  | 0, a => some a
  | level + 1, a =>
    if s.sp < a + 1 then none
    else
      match s.store (a + 1) with
      | .address b | .int b | .char b => base? s level b
      | _ => base? s level 0

def frame? (s : State) (level : Int) : Option Int := if level < 0 then none else base? s level.toNat s.mp

/-- What an instruction leads to. -/
inductive Outcome where
  | next (s : State)
  | halt (s : State)
  | fault

namespace Outcome

def ofOption : Option State → Outcome
  | some s => next s
  | none => fault

end Outcome

/-- The word at an address that is on the stack. -/
def load? (s : State) (cell : Cell) (a : Int) : Option Word :=
  if 0 ≤ a ∧ a ≤ s.sp ∧ (s.store a).cell? = some cell then some (s.store a) else none

def jump? (targets : Label → Option Nat) (l : Label) (s : State) : Option State :=
  (targets l).map fun k => { s with pc := k }

/-- A frame for a function some levels outwards, whose arguments follow. -/
def mark? (s : State) (level : Int) : Option State :=
  (frame? s level).map fun link =>
    let store := Function.update s.store (s.sp + 1) .empty
    let store := Function.update store (s.sp + 2) (.address link)
    let store := Function.update store (s.sp + 3) (.address s.mp)
    let store := Function.update store (s.sp + 4) (.address s.ep)
    { s with store := Function.update store (s.sp + 5) .empty, sp := s.sp + 5, pc := s.pc + 1 }

/-- Enters a function with a number of arguments. -/
def call? (targets : Label → Option Nat) (s : State) (count : Nat) (l : Label) : Option State :=
  let mp := s.sp - (count + 4)
  jump? targets l { s with mp, store := Function.update s.store (mp + 4) (.address s.pc) }

/-- Leaves a function; `sp` is then some cells below or at its frame. -/
def return? (s : State) (below : Int) : Option State :=
  match s.store (s.mp + 2), s.store (s.mp + 3), s.store (s.mp + 4) with
  | .address mp, .address ep, .address pc =>
    if 0 ≤ pc then some { s with sp := s.mp - below, mp, ep, pc := pc.toNat + 1 } else none
  | _, _, _ => none

/-- Sets the top of the stack; cells that come on the stack are empty. -/
def setTop (s : State) (n : Int) : State :=
  let sp := s.mp + n - 1
  { s with sp, pc := s.pc + 1, store := fun a => if s.sp < a ∧ a ≤ sp then .empty else s.store a }

def shift? (s : State) (cell : Cell) (n : Int) : Option State :=
  if s.top.cell? = some cell ∧ cell ≠ .bool then
    s.top.ordinal?.bind fun a => (Word.ofOrdinal? cell (a + n)).map (s.replace 1)
  else none

/-- The state after an instruction that is not the last one. -/
def execute (targets : Label → Option Nat) (s : State) : Instr → Option State
  | .ldc cell c => (constant? cell c).map s.push
  | .lda level offset => do
    let a ← level.bind (frame? s)
    return s.push (.address (a + offset))
  | .lod cell level offset => do
    let a ← level.bind (frame? s)
    let w ← load? s cell (a + offset)
    return s.push w
  | .str cell level offset => do
    let a ← frame? s level
    if s.top.cell? = some cell ∧ 0 ≤ a + offset ∧ a + offset ≤ s.sp then
      return s.storeAt (a + offset) s.top 1
    else none
  | .sto cell =>
    match s.store (s.sp - 1) with
    | .address a =>
      if 1 ≤ s.sp ∧ s.top.cell? = some cell ∧ 0 ≤ a ∧ a ≤ s.sp - 2 then some (s.storeAt a s.top 2) else none
    | _ => none
  | .ind cell =>
    match s.top with
    | .address a => (load? s cell a).map (s.replace 1)
    | _ => none
  | .dpl cell => if s.top.cell? = some cell then some (s.push s.top) else none
  | .ssp n => some (setTop s n)
  | .mst level => mark? s level
  | .cup count l => call? targets s count l
  | .hlt => none
  | .retp => return? s 1
  | .retf => return? s 0
  | .ujp l => jump? targets l s
  | .fjp l =>
    match s.top with
    | .bool true => some (s.pop 1)
    | .bool false => jump? targets l (s.pop 1)
    | _ => none
  | .conv source target =>
    if s.top.cell? = some source then
      s.top.ordinal?.bind fun n => (Word.ofOrdinal? target n).map (s.replace 1)
    else none
  | .arith op cell => if 1 ≤ s.sp then (arithWord? op cell (s.store (s.sp - 1)) s.top).map (s.replace 2) else none
  | .neg cell =>
    if s.top.cell? = some cell then
      s.top.ordinal?.bind fun n => (Word.ofOrdinal? cell (-n)).map (s.replace 1)
    else none
  | .logic op =>
    match s.store (s.sp - 1), s.top with
    | .bool a, .bool b => if 1 ≤ s.sp then some (s.replace 2 (.bool (op.holds a b))) else none
    | _, _ => none
  | .not =>
    match s.top with
    | .bool b => some (s.replace 1 (.bool !b))
    | _ => none
  | .compare op cell =>
    if 1 ≤ s.sp ∧ (s.store (s.sp - 1)).cell? = some cell ∧ s.top.cell? = some cell then do
      let a ← (s.store (s.sp - 1)).ordinal?
      let b ← s.top.ordinal?
      return s.replace 2 (.bool (op.holds a b))
    else none
  | .inc cell n => shift? s cell n
  | .dec cell n => shift? s cell (-n)
  | .chk low high =>
    match s.top with
    | .int n => if low ≤ n ∧ n ≤ high then some (s.pop 0) else none
    | _ => none
  | .ixa size =>
    match s.store (s.sp - 1), s.top with
    | .address a, .int n => some (s.replace 2 (.address (a + n * size)))
    | _, _ => none
  | .input cell =>
    match s.input with
    | w :: rest => if w.cell? = some cell then some ({ s with input := rest }.push w) else none
    | [] => none
  | .output cell =>
    if s.top.cell? = some cell then some ({ s with output := s.top :: s.output }.pop 1) else none

/-! ## Code in the machine -/

/-- The instructions of code. -/
def instrs : List Line → List Instr
  | [] => []
  | .instr i :: rest => i :: instrs rest
  | _ :: rest => instrs rest

def labels : List Line → List Label
  | [] => []
  | .label l :: rest => l :: labels rest
  | _ :: rest => labels rest

/-- The place of a label in code whose first instruction has a number. -/
def targetFrom (l : Label) : Nat → List Line → Option Nat
  | _, [] => none
  | k, .instr _ :: rest => targetFrom l (k + 1) rest
  | k, .label l' :: rest => if l' = l then some k else targetFrom l k rest
  | k, .blank :: rest => targetFrom l k rest

def target (code : List Line) (l : Label) : Option Nat := targetFrom l 0 code

/-- Code can be loaded if no label stands in two places. -/
def Loads (code : List Line) : Prop := (labels code).Nodup

instance (code : List Line) : Decidable (Loads code) := inferInstanceAs (Decidable (labels code).Nodup)

def step (code : List Line) (s : State) : Outcome :=
  match (instrs code)[s.pc]? with
  | some .hlt => .halt s
  | some i => .ofOption (execute (target code) s i)
  | none => .fault

end MiniC.Machine
