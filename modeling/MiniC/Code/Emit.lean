import MiniC.Code.Instr
import MiniC.Scope.Pass

/-!
# Making code

A code maker adds lines at the end of the code; lines that were added before a fault stay. For each node of a
syntax tree there is a `Coder`: its node, the coders of its children, and the code it makes in a setting. The
setting says whether the address of an object is wanted or its value, where the loop around is continued and
left, and which nodes stand above.
-/

namespace MiniC

structure EmitState where
  table : SymbolTable
  labels : Nat := 0
  code : Array Line := #[]
  deriving Inhabited

abbrev EmitM := ExceptT Fault (StateM EmitState)

structure Setting where
  /-- The address is wanted, not the value. -/
  address : Bool := false
  /-- Where the innermost loop goes on, and where it ends. -/
  again : Option Label := none
  after : Option Label := none
  above : List Node := []
  deriving Inhabited

inductive Coder where
  | mk (node : Node) (run : Setting → EmitM Unit) (children : List Coder)

namespace Coder

def node : Coder → Node
  | mk n _ _ => n

def run : Coder → Setting → EmitM Unit
  | mk _ run _ => run

def children : Coder → List Coder
  | mk _ _ cs => cs

end Coder

namespace Emit

def lift {α : Type} (e : Except Fault α) : EmitM α := ExceptT.mk (pure e)

def onTable {α : Type} (op : TableM α) : EmitM α := do
  let s ← get
  set { s with table := default }
  let (result, table) := op.run.run s.table
  set { s with table }
  lift result

def line (l : Line) : EmitM Unit := modify fun s => { s with code := s.code.push l }

def instr (i : Instr) : EmitM Unit := line (.instr i)

def instrs : List Instr → EmitM Unit
  | [] => pure ()
  | i :: rest => do
    instr i
    instrs rest

def place (l : Label) : EmitM Unit := line (.label l)

def newLabel (use : LabelUse) : EmitM Label := do
  let s ← get
  set { s with labels := s.labels + 1 }
  return .numbered (s.labels + 1) use

/-- The address of an object in its frame is counted from the first cell after the organisational ones. -/
def frameOffset : Int := 5

def cellOf (t : CType) : Except Fault Cell :=
  if 0 < t.depth then pure .address
  else
    match t.base with
    | .int => pure .int
    | .float => pure .real
    | .char => pure .char
    | .void => pure .address
    | .other _ => throw .unknownKey

/-- What an object of a type holds before something is assigned to it. -/
def zeroOf (t : CType) : Except Fault Constant :=
  if 0 < t.depth then pure (.number 0)
  else
    match t.base with
    | .int => pure (.number 0)
    | .float => pure (.digits (.finite false 0 Binary64.minExponent))
    | .char => pure (.number 0)
    | _ => throw .unknownKey

def offsetOf (v : Option Nat) : EmitM Int := do
  let s ← get
  match v.bind fun v => (s.table.symbol v).address with
  | some a => return a + frameOffset
  | none => throw .unsuitable

def nth (cs : List Coder) (i : Nat) : Except Fault Coder :=
  match cs[i]? with
  | some c => pure c
  | none => throw .outOfRange

def runAll (setting : Setting) : List Coder → EmitM Unit
  | [] => pure ()
  | c :: cs => do
    c.run setting
    runAll setting cs

def typeOf (c : Coder) : Except Fault CType := c.node.exprType

def cell (c : Coder) : Except Fault Cell := typeOf c >>= cellOf

end Emit

end MiniC
