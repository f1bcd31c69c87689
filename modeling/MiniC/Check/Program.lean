import MiniC.Check.Format
import MiniC.Check.Initializer

/-!
# Type checking

The last pass before code is made compares the types of the parts of each expression, of the arguments of
each call and of the initialisers. A node with an error in one of its children is not checked itself.
-/

namespace MiniC.Check

open Pass

def valueOf (n : Node) (i : Nat) : Except Fault CType := n.child i >>= Node.exprType >>= CType.asValue

def typeAt (n : Node) (i : Nat) : Except Fault CType := n.child i >>= Node.exprType

/-- Refuses expressions without a value. -/
def hasVoid (n : Node) (above : List Node) : List CType → PassM Bool
  | [] => pure false
  | t :: ts => do
    if ← lift (t.agrees .void) then
      error n above "void value not ignored as it ought to be"
      return true
    hasVoid n above ts

def checkReturn (n : Node) (above : List Node) : PassM Unit := do
  let function ← match above.find? (·.kind.isDefinition) with
    | some f => lift f.exprType
    | none => throw .missing
  match n.children with
  | [] =>
    if function.base ≠ .void ∨ function.depth ≠ 0 then
      warning n "'return' with no value, in function returning non-void"
  | value :: _ =>
    let given ← lift (value.exprType >>= CType.asValue)
    if !(← lift (function.agrees given)) then
      if ← lift (function.agrees .void) then warning n "'return' with a value, in function returning void"
      else
        error n above (s!"incompatible conversion returning '{given.render}' from a function with return type '"
          ++ s!"{function.render}'")

def checkDeclarator (n : Node) (above : List Node) (head : DeclaratorHead) : PassM (Option Node) := do
  let type ← lift (Node.declaratorType (above.head?.map Node.kind) head)
  let name := head.name.getD "None"
  if ← lift (type.agrees .void) then error n above s!"variable or field '{name}' declared void"
  if type.hasArrays then
    if !(← dimensionsOk n above name n.arrayParts 0 head.layers) then return none
  match n.initializer? with
  | none =>
    let _ ← lift type.isArray
    return none
  | some list =>
    if ← lift type.isArray then
      if list.kind != .initializerList true then
        let first ← lift (list.child 0)
        let fits ← if first.kind.isString then lift (first.exprType >>= type.agrees) else pure false
        if !fits then
          error list (n :: above) "invalid initializer"
          return none
      let levels := (type.dimensions?.getD []).length
      let list ← checkList ⟨n, above, name, type, list⟩ (levels - 1) 1 (n :: above) list
      return some list
    match list.children with
    | [] =>
      error n above "empty scalar initializer"
      return none
    | element :: rest =>
      if !rest.isEmpty then warning n "excess elements in scalar initializer"
      let target ← lift type.asValue
      initializerOk n above target element (list :: n :: above)
      return none

def checkArgument (n : Node) (above : List Node) (name : String) (index : Nat) (param : CType)
    (argument : Node) : PassM Unit := do
  let expected ← lift param.asValue
  let given ← lift (argument.exprType >>= CType.asValue)
  let number := index + 1
  let mismatch := s!"expected '{expected.render}' but got '{given.render}'"
  if ← lift (given.agrees .void) then error n above "invalid use of void expression"
  else if !expected.sameExtents given then
    warning n s!"passing argument {number} of '{name}' from incompatible pointer type, {mismatch}"
  else if !(← lift (expected.agrees given)) then
    pointAt n index
    error n above s!"parameter {number} of '{name}' {mismatch}"
  else if !(← lift (expected.keepsConst given)) then
    warning n s!"passing argument {number} of '{name}' discards 'const' qualifier, {mismatch}"

/-- Checks the arguments of a call against the types of the parameters. -/
def checkArguments (n : Node) (above : List Node) (name : String) :
    Nat → List CType → List Node → PassM Unit
  | index, param :: params, argument :: arguments => do
    if !(← isMarked argument) then checkArgument n above name index param argument
    checkArguments n above name (index + 1) params arguments
  | _, _, _ => pure ()

/-- Checks a call and gives the pieces of its format, if it is of an input or output function. -/
def checkCall (n : Node) (above : List Node) (name : Option String) (callee : Option Callee) :
    PassM (Option (List Piece)) := do
  let shown := name.getD "None"
  let arguments := n.arguments?
  let f ← match callee with
    | some f => pure f
    | none => throw .missing
  if (shown == "printf" || shown == "scanf") && f.isLibrary then
    match arguments with
    | some list => return ← Format.check n above shown list.children
    | none => throw (.illegal "Did not find arguments node in ASTFunctionCallNode")
  match f.params, arguments with
  | none, _ => throw .missing
  | some _, none => throw (.illegal "Did not find arguments node in ASTFunctionCallNode")
  | some params, some list =>
    let given := list.children.length
    let need := params.length
    if given ≠ need then
      error n above (s!"number of arguments to function '{shown}' does not match definition (have {given}"
        ++ s!", need {need})")
    else checkArguments n above shown 0 params list.children
    return none

def checkConditional (n : Node) (above : List Node) : PassM Unit := do
  let condition ← lift (valueOf n 0)
  let first ← lift (valueOf n 1)
  let second ← lift (valueOf n 2)
  if ← hasVoid n above [condition, first, second] then return
  if !(← lift (condition.agrees .int)) then
    pointAt n 0
    error n above
      s!"invalid first operand to ternary '?:' (have '{condition.render}', need 'int')"
    return
  if !(← lift (first.agrees second)) then
    pointAt n 1
    error n above (s!"invalid operands to ternary '?:', alternatives should be of equal type (have '"
      ++ s!"{first.render}' and '{second.render}')")

def checkArith (n : Node) (above : List Node) (op : ArithOp) : PassM Unit := do
  let left ← lift (valueOf n 0)
  let right ← lift (valueOf n 1)
  if ← hasVoid n above [left, right] then return
  let leftPointer ← lift left.isPointer
  let rightPointer ← lift right.isPointer
  if op = .add ∨ op = .sub then
    let shifted ← if leftPointer then lift (right.agrees .int)
      else if rightPointer then lift (left.agrees .int)
      else pure false
    if shifted then return
  let same ← lift (left.agrees right)
  if !same || (leftPointer && rightPointer) then
    error n above s!"invalid operands to binary '{op.sign}' (have '{left.render}' and '{right.render}')"

def checkAssign (n : Node) (above : List Node) : PassM Unit := do
  let target ← lift (n.child 0)
  let type? ← lift (target.typeOf? none)
  let given ← lift (valueOf n 1)
  let type ← lift (Node.required type?)
  if type.isValue then
    error n above "lvalue required as left operand of assignment"
    return
  if ← hasVoid n above [type, given] then return
  if !(← lift (type.agrees given)) then
    error n above (s!"incompatible types when assigning to type '{type.render}' from type '"
      ++ s!"{given.render}'")
    return
  if ← lift type.isConst then
    match target.kind with
    | .name text _ _ => error n above s!"assignment of read-only variable '{text}'"
    | .subscript | .dereference =>
      let text := (target.origin.map ParseTree.text).getD ""
      error n above s!"assignment of read-only location '{text}'"
    | _ => error n above "assignment of read-only variable"
    return
  if !(← lift (type.keepsConst given)) then
    error n above s!"assigning to '{type.render}' from '{given.render}' discards 'const' qualifier"

def checkLogic (n : Node) (above : List Node) (op : LogicOp) : PassM Unit := do
  let left ← lift (valueOf n 0)
  let right ← lift (valueOf n 1)
  if ← hasVoid n above [left, right] then return
  let both := s!"invalid operands to logical '{op.word}' (have '{left.render}' and '{right.render}'"
  if !(← lift (left.agrees right)) then
    error n above (both ++ ")")
    return
  let leftInt ← lift (left.agrees .int)
  let rightInt ← lift (right.agrees .int)
  if !leftInt || !rightInt then error n above (both ++ ", need 'int' and 'int')")

def checkCompare (n : Node) (above : List Node) (op : CompareOp) : PassM Unit := do
  let left ← lift (valueOf n 0)
  let right ← lift (valueOf n 1)
  if ← hasVoid n above [left, right] then return
  if !(← lift (left.agrees right)) then
    error n above s!"invalid operands to comparison '{op.sign}' (have '{left.render}' and '{right.render}')"

def checkUnary (n : Node) (above : List Node) (op : UnaryOp) : PassM Unit := do
  let operand ← lift (n.child 0)
  let type ← lift operand.exprType
  if ← lift (type.agrees .void) then
    error n above "invalid use of void expression"
    return
  if type.isValue && op.isStep then
    error n above s!"lvalue required as {op.word} operand"
    return
  if op.isStep then
    if ← lift type.isConst then
      match operand.kind with
      | .name text _ _ =>
        error n above s!"cannot assign to variable '{text}' with const-qualified type '{text}'"
      | _ => error n above "read-only variable is not assignable"

def checkAddressOf (n : Node) (above : List Node) : PassM Unit := do
  let type ← lift (typeAt n 0)
  if ← lift (type.agrees .void) then warning n "taking address of expression of type ‘void’"
  if type.isValue then
    error n above s!"lvalue required as unary '&' operand, (got rvalue of type '{type.render}')"

def checkDereference (n : Node) (above : List Node) : PassM Unit := do
  let type ← lift (typeAt n 0)
  if ← lift (type.agrees .void) then
    error n above "void value not ignored as it ought to be"
    return
  if type.depth ≤ 0 then error n above s!"invalid type argument of unary '*' (have '{type.render}')"

def checkNot (n : Node) (above : List Node) : PassM Unit := do
  let type ← lift (valueOf n 0)
  if ← lift (type.agrees .void) then
    error n above "invalid use of void expression"
    return
  if !(← lift (type.agrees .int)) then
    error n above s!"invalid operand to logical '!' (have '{type.render}', need 'int')"

def checkSubscript (n : Node) (above : List Node) : PassM Unit := do
  let type ← lift (typeAt n 0)
  if type.depth = 0 then
    if !(← lift type.isArray) then
      error n above "subscripted value is neither array nor pointer nor vector"

def replaceInitializer (n list : Node) : Node :=
  n.withChildren (n.children.map fun c => if c.id == list.id then list else c)

def checkNode (n : Node) (above : List Node) : PassM Node := do
  match n.kind with
  | .returnStmt => checkReturn n above; return n
  | .declarator head =>
    match ← checkDeclarator n above head with
    | some list => return replaceInitializer n list
    | none => return n
  | .call name callee pieces =>
    match ← checkCall n above name callee with
    | some pieces => return n.withKind (.call name callee (some pieces))
    | none => return n.withKind (.call name callee pieces)
  | .conditional => checkConditional n above; return n
  | .arith op => checkArith n above op; return n
  | .assign => checkAssign n above; return n
  | .logic op => checkLogic n above op; return n
  | .compare op => checkCompare n above op; return n
  | .unary op _ => checkUnary n above op; return n
  | .addressOf => checkAddressOf n above; return n
  | .dereference => checkDereference n above; return n
  | .logicalNot => checkNot n above; return n
  | .subscript => checkSubscript n above; return n
  | _ => return n

def needsSoundChildren : Kind → Bool
  | .returnStmt | .declarator _ | .call .. | .conditional | .arith _ | .assign | .logic _ | .compare _
  | .unary .. | .addressOf | .dereference | .logicalNot | .subscript => true
  | _ => false

def hasNoParts : Kind → Bool
  | .includeFile .. | .name .. | .integer _ | .float _ | .character _ | .string .. | .breakStmt
  | .continueStmt => true
  | _ => false

mutual

/-- Visits a node, whose parents are given innermost first. -/
def visit (above : List Node) : Node → PassM Node
  | .mk id kind origin children => do
    let n := Node.mk id kind origin children
    if hasNoParts kind then return n
    if kind != .program then
      if ← isMarked n then return n
    let children ← visitAll (n :: above) children
    let n := n.withChildren children
    if needsSoundChildren kind then
      if ← anyMarked children then return n
    checkNode n above

def visitAll (above : List Node) : List Node → PassM (List Node)
  | [] => pure []
  | c :: cs => do
    let c ← visit above c
    let cs ← visitAll above cs
    return c :: cs

end

def run (program : Node) : PassM Node := visit [] program

end MiniC.Check
