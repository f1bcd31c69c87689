import MiniC.Code.InputOutput

/-!
# Code for expressions

The code of an expression leaves its value on the stack, or the address of the object it names if that is
wanted. The value of an expression that is a statement of its own is stored away in cell 0.
-/

namespace MiniC.Emit

/-- The value of an expression is not used by what stands around it. -/
def isDropped (n : Node) : List Node → Except Fault Bool
  | [] => throw .missing
  | parent :: _ => do
    if parent.kind.isExpression then return false
    let type ← n.exprType
    if ← type.agrees .void then return false
    match parent.kind with
    | .initializerList _ => return false
    | .forLoop .. => return parent.header.iteration.any (·.id == n.id)
    | .ifStmt | .whileLoop | .doWhile | .returnStmt | .arguments | .declarator _ => return false
    | .statement => return true
    | _ => throw (.illegal "don't know if expression result should be cleaned up")

/-- Makes the code of an expression and stores its value away if it is not used. -/
def dropping (n : Node) (setting : Setting) (make : EmitM Unit) : EmitM Unit := do
  if ← lift (isDropped n setting.above) then instr (.ldc .address (.number 0))
  make
  if ← lift (isDropped n setting.above) then
    let cell ← lift (n.exprType >>= cellOf)
    instr (.sto cell)

def machineOp : ArithOp → Except Fault MachineOp
  | .add => pure .add
  | .sub => pure .sub
  | .mul => pure .mul
  | .div => pure .div
  | .mod => throw .unknownKey

def comma (n : Node) (cs : List Coder) (setting : Setting) : EmitM Unit := do
  let first ← lift (nth cs 0)
  let inside := { setting with address := false }
  let type ← lift n.exprType
  if ← lift (type.agrees .void) then first.run inside
  else
    instr (.ldc .address (.number 0))
    first.run inside
    let cell ← lift (cell first)
    instr (.sto cell)
  let second ← lift (nth cs 1)
  second.run inside

/-- A string literal is the address of its text, unless it fills the array that is declared with it. -/
def stringLiteral (codes : List Nat) (above : List Node) : EmitM Unit := do
  let fills ← match above with
    | list :: holder :: rest =>
      if list.kind.isInitializerList then lift do
        let type ← holder.typeOf (rest.head?.map Node.kind)
        type.agrees .string
      else pure false
    | list :: [] => if list.kind.isInitializerList then throw .missing else pure false
    | [] => pure false
  if fills then return
  let s ← get
  match s.table.findString codes with
  | none => throw .missing
  | some v =>
    let offset ← offsetOf (some v)
    instr (.lda (some 1) offset)

def name (n : Node) (symbol : Option Nat) (setting : Setting) : EmitM Unit := do
  let s ← get
  let level := symbol.bind s.table.levelOf
  let type ← lift n.exprType
  let isArray ← if setting.address then pure true else lift type.isArray
  let offset ← offsetOf symbol
  if isArray then instr (.lda level offset)
  else
    let cell ← lift (cellOf type)
    instr (.lod cell level offset)

/-- The arguments of a call; those that are names of pointers and arrays give their addresses. -/
def arguments (cs : List Coder) (setting : Setting) : EmitM Unit := do
  for c in cs do
    if c.node.kind.isName then
      let type ← lift (typeOf c)
      c.run (if 0 < type.depth then { setting with address := true } else setting)
    else c.run setting

def call (called : Option String) (callee : Option Callee) (pieces : Option (List Piece))
    (cs : List Coder) (setting : Setting) : EmitM Unit := do
  match callee with
  | none => throw .missing
  | some f =>
    if f.isLibrary then
      match called with
      | some "printf" => library outPieces
      | some "scanf" => library inPieces
      | _ => pure ()
    else
      let s ← get
      match (s.table.lookup called 1).map s.table.symbol with
      | some (.function g) =>
        instr (.mst g.depth)
        runAll setting cs
        let first ← lift (nth cs 0)
        instr (.cup first.children.length (.function f.name))
      | _ => throw .missing
where
  library (make : Setting → List Coder → List Piece → EmitM Unit) : EmitM Unit := do
    match pieces, cs.find? (·.node.kind == .arguments) with
    | some pieces, some list => make { setting with above := list.node :: setting.above } list.children pieces
    | _, _ => throw .missing

def cast (n : Node) (cs : List Coder) (setting : Setting) : EmitM Unit := do
  runAll setting cs
  if !setting.address then
    let source ← lift (nth cs 0 >>= cell)
    let target ← lift (n.exprType >>= cellOf)
    if source ≠ target then instr (.conv source target)

def assign (cs : List Coder) (setting : Setting) : EmitM Unit := do
  let target ← lift (nth cs 0)
  target.run { setting with address := true }
  instr (.dpl .address)
  let value ← lift (nth cs 1)
  value.run { setting with address := false }
  let cell ← lift (cell target)
  instrs [.sto cell, .ind cell]

def logic (op : LogicOp) (cs : List Coder) (setting : Setting) : EmitM Unit := do
  let inside := { setting with address := false }
  let left ← lift (nth cs 0)
  left.run inside
  instr (.conv .int .bool)
  let right ← lift (nth cs 1)
  right.run inside
  instrs [.conv .int .bool, .logic op, .conv .bool .int]

def compare (op : CompareOp) (cs : List Coder) (setting : Setting) : EmitM Unit := do
  runAll { setting with address := false } cs
  let cell ← lift (nth cs 0 >>= cell)
  instrs [.compare op cell, .conv .bool .int]

/-- Adds to the value on the stack, or takes from it: one, or the size of what a pointer points at. -/
def stepValue (up : Bool) (type : CType) : EmitM Unit := do
  let step (cell : Cell) (n : Int) : Instr := if up then .inc cell n else .dec cell n
  if ← lift type.isPointer then
    let size ← lift type.pointee.size
    instrs [.conv .address .int, step .int size, .conv .int .address]
  else
    let cell ← lift (cellOf type)
    instr (step cell 1)

def unary (op : UnaryOp) (side : Side) (cs : List Coder) (setting : Setting) : EmitM Unit := do
  let type ← lift (nth cs 0 >>= typeOf)
  runAll { setting with address := op.isStep } cs
  let cell ← lift (cellOf type)
  if op.isStep then
    instrs [.dpl .address, .dpl .address, .ind cell]
    stepValue (op = .increment) type
    instrs [.sto cell, .ind cell]
    if side = .after then stepValue (op ≠ .increment) type
  else if op = .minus then instr (.neg cell)

/-- The address of what a pointer points at is the pointer. -/
def addressOf (cs : List Coder) (setting : Setting) : EmitM Unit := do
  let inside := { setting with address := true }
  let operand ← lift (nth cs 0)
  if operand.node.kind == .dereference then
    runAll { inside with above := operand.node :: inside.above } operand.children
  else runAll inside cs

def dereference (n : Node) (cs : List Coder) (setting : Setting) : EmitM Unit := do
  runAll { setting with address := false } cs
  if !setting.address then
    let cell ← lift (n.exprType >>= cellOf)
    instr (.ind cell)

def logicalNot (cs : List Coder) (setting : Setting) : EmitM Unit := do
  runAll { setting with address := false } cs
  instrs [.conv .int .bool, .not, .conv .bool .int]

def subscript (n : Node) (cs : List Coder) (setting : Setting) : EmitM Unit := do
  let array ← lift (nth cs 0)
  let arrayType ← lift (typeOf array)
  let type ← lift n.exprType
  array.run { setting with address := true }
  let isPointer ← lift arrayType.isPointer
  if isPointer then instr (.ind .address)
  let index ← lift (nth cs 1)
  index.run { setting with address := false }
  if !isPointer then
    let size ← lift arrayType.size
    instr (.chk 0 (size - 1))
  let size ← lift type.size
  instr (.ixa size)
  if !setting.address then
    let cell ← lift (cellOf type)
    instr (.ind cell)

def remainder (cs : List Coder) (setting : Setting) : EmitM Unit := do
  let left ← lift (nth cs 0)
  left.run setting
  instrs [.dpl .int, .ldc .address (.number 0)]
  let right ← lift (nth cs 1)
  right.run setting
  instrs ([.sto .int] ++ loadCell 0 .int ++ [.arith .div .int] ++ loadCell 0 .int
    ++ [.arith .mul .int, .arith .sub .int])

/-- Arithmetic with a pointer: the other operand counts in units of what is pointed at. -/
def pointerArith (op : ArithOp) (pointerLeft : Bool) (size : Int) (cs : List Coder) (setting : Setting) :
    EmitM Unit := do
  let pointer : List Instr := [.conv .address .int]
  let number : List Instr := [.ldc .int (.number size), .arith .mul .int]
  let left ← lift (nth cs 0)
  left.run setting
  instrs (if pointerLeft then pointer else number)
  let right ← lift (nth cs 1)
  right.run setting
  instrs (if pointerLeft then number else pointer)
  let op ← lift (machineOp op)
  instrs [.arith op .int, .conv .int .address]

def arith (op : ArithOp) (cs : List Coder) (setting : Setting) : EmitM Unit := do
  let left ← lift (nth cs 0 >>= typeOf)
  let right ← lift (nth cs 1 >>= typeOf)
  let inside := { setting with address := false }
  if op = .mod then remainder cs inside
  else
    let leftPointer ← lift left.isPointer
    let rightPointer ← if leftPointer then pure false else lift right.isPointer
    if leftPointer || rightPointer then
      let size ← lift (if leftPointer then left else right).pointee.size
      pointerArith op leftPointer size cs inside
    else
      runAll inside cs
      let op ← lift (machineOp op)
      let cell ← lift (nth cs 0 >>= cell)
      instr (.arith op cell)

/-- A choice between two parts, of which the second may be missing. -/
def choice (cs : List Coder) (setting : Setting) : EmitM Unit := do
  let otherwise ← newLabel .elseBranch
  let after ← newLabel .afterIf
  let inside := { setting with address := false }
  let condition ← lift (nth cs 0)
  condition.run inside
  let cell ← lift (cell condition)
  instrs [.conv cell .bool, .fjp otherwise]
  let first ← lift (nth cs 1)
  first.run inside
  match cs with
  | [_, _, second] =>
    instr (.ujp after)
    place otherwise
    second.run inside
    place after
  | _ => place otherwise

end MiniC.Emit
