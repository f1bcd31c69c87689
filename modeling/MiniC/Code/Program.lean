import MiniC.Code.Array
import MiniC.Code.Expression
import MiniC.Scope.Fill

/-!
# Code for programs

A program starts with the cells for counting, the string literals and the globals, and then calls its main
function. Each function has a label and a frame. `compile` gives the code with what the symbol table had to
say; if it fails, the code made before stays.
-/

namespace MiniC.Emit

def whileLoop (cs : List Coder) (setting : Setting) : EmitM Unit := do
  let again ← newLabel .whileCondition
  let after ← newLabel .whileAfter
  let inside := { setting with again := some again, after := some after }
  place again
  let condition ← lift (nth cs 0)
  condition.run inside
  let cell ← lift (cell condition)
  instrs [.conv cell .bool, .fjp after]
  let body ← lift (nth cs 1)
  body.run inside
  instr (.ujp again)
  place after

def doWhile (cs : List Coder) (setting : Setting) : EmitM Unit := do
  let again ← newLabel .doWhileCondition
  let after ← newLabel .doWhileAfter
  let condition ← lift (nth cs 1)
  condition.run setting
  let cell ← lift (cell condition)
  instr (.conv cell .bool)
  place again
  let body ← lift (nth cs 0)
  body.run setting
  instr (.fjp after)
  condition.run setting
  instr (.ujp again)
  place after

/-- The coders of the parts of a loop's header, and those of the rest. -/
def headerCoders (initializer condition iteration : Bool) (cs : List Coder) :
    Option Coder × Option Coder × Option Coder × List Coder :=
  let a := initializer.toNat
  let b := a + condition.toNat
  let c := b + iteration.toNat
  (if initializer then cs[0]? else none, if condition then cs[a]? else none,
    if iteration then cs[b]? else none, cs.drop c)

def runOption (setting : Setting) : Option Coder → EmitM Unit
  | some c => c.run setting
  | none => pure ()

def forLoop (hasInitializer hasCondition hasIteration : Bool) (cs : List Coder) (setting : Setting) :
    EmitM Unit := do
  let again ← newLabel .forIteration
  let test ← newLabel .forCondition
  let after ← newLabel .forAfter
  let inside := { setting with again := some again, after := some after }
  let (initializer, condition, iteration, body) := headerCoders hasInitializer hasCondition hasIteration cs
  onTable (SymbolTable.openScope false none)
  runOption inside initializer
  place test
  match condition with
  | some c =>
    c.run inside
    let cell ← lift (cell c)
    instr (.conv cell .bool)
  | none => instr (.ldc .bool .truth)
  instr (.fjp after)
  runAll inside body
  place again
  runOption inside iteration
  instr (.ujp test)
  place after
  onTable SymbolTable.closeScope

def jump (target : Option Label) : EmitM Unit :=
  match target with
  | some l => instr (.ujp l)
  | none => throw .outOfRange

def returnStmt (cs : List Coder) (setting : Setting) : EmitM Unit := do
  match cs with
  | [] => instr .retp
  | value :: _ =>
    runAll setting cs
    let cell ← lift (cell value)
    instrs [.str cell 0 0, .retf]

def reserve : EmitM Unit := do
  let s ← get
  match s.table.current with
  | some scope => instr (.ssp (s.table.cellsOf scope + frameOffset))
  | none => throw .missing

def function (head : FunctionHead) (cs : List Coder) (setting : Setting) : EmitM Unit := do
  onTable (SymbolTable.openScope true head.name)
  line .blank
  place (.function (head.name.getD "None"))
  reserve
  runAll setting (cs.filter fun c => c.node.kind != .parameters)
  if head.spec.base = .void ∧ head.layers.isEmpty then instr .retp else instr .retf
  onTable SymbolTable.closeScope

def statements (cs : List Coder) (above : List Node) (setting : Setting) : EmitM Unit := do
  let opens := Fill.opensScope above
  if opens then onTable (SymbolTable.openScope false none)
  runAll setting cs
  if opens then onTable SymbolTable.closeScope

def codeOf (n : Node) (cs : List Coder) (setting : Setting) : EmitM Unit :=
  let inside := { setting with above := n :: setting.above }
  let expression := dropping n setting
  match n.kind with
  | .function head => if head.form.isDefinition then function head cs inside else runAll inside cs
  | .parameters | .parameter _ => pure ()
  | .arguments => arguments cs inside
  | .statements => statements cs setting.above inside
  | .returnStmt => returnStmt cs inside
  | .breakStmt => jump setting.after
  | .continueStmt => jump setting.again
  | .ifStmt => choice cs inside
  | .forLoop a b c => forLoop a b c cs inside
  | .whileLoop => whileLoop cs inside
  | .doWhile => doWhile cs inside
  | .declarator head => declarator n head cs setting
  | .integer value => expression (instr (.ldc .int (.number value)))
  | .float value => expression (instr (.ldc .real (.places value)))
  | .character text => expression (instr (.ldc .char (.written text)))
  | .string _ codes => expression (stringLiteral codes setting.above)
  | .name _ _ symbol => expression (name n symbol setting)
  | .call called callee pieces => expression (call called callee pieces cs inside)
  | .cast .. => expression (cast n cs inside)
  | .unary op side => expression (unary op side cs inside)
  | .addressOf => expression (addressOf cs inside)
  | .dereference => expression (dereference n cs inside)
  | .logicalNot => logicalNot cs inside
  | .subscript => expression (subscript n cs inside)
  | .comma => expression (comma n cs inside)
  | .assign => expression (assign cs inside)
  | .logic op => expression (logic op cs inside)
  | .compare op => expression (compare op cs inside)
  | .arith op => expression (arith op cs inside)
  | .conditional => expression (choice cs inside)
  | _ => runAll inside cs

mutual

def coder : Node → Coder
  | .mk id kind origin children =>
    let cs := coders children
    .mk (.mk id kind origin children) (codeOf (.mk id kind origin children) cs) cs

def coders : List Node → List Coder
  | [] => []
  | c :: cs => coder c :: coders cs

end

/-- Stores the text of a string literal among the globals; an empty one needs nothing. -/
def storeLiteral (codes : List Nat) (address : Int) : EmitM Unit := do
  for (c, i) in codes.zipIdx do
    instrs [.lda (some 0) (address + Int.ofNat i), .ldc .char (.char c), .sto .char]
  if !codes.isEmpty then
    instrs [.lda (some 0) (address + Int.ofNat codes.length), .ldc .char (.number 27), .sto .char]

def globals (program : Node) : List (Coder × List Node) :=
  program.children.flatMap fun declaration =>
    match declaration.kind with
    | .variableDeclaration _ =>
      (declaration.children.filter fun d =>
        match d.kind with
        | .declarator head => head.symbol.isSome
        | _ => false).map fun d => (coder d, [declaration, program])
    | _ => []

def program (p : Node) : EmitM Unit := do
  let zero : Instr := .ldc .int (.number 0)
  instrs [zero, zero, zero]
  reserve
  let s ← get
  for (codes, v) in s.table.sortedStrings do
    let address ← offsetOf (some v)
    storeLiteral codes address
  for (c, above) in globals p do
    c.run { above }
  instrs [.mst 0, .cup 0 (.function "main"), .hlt]
  for f in p.children do
    if f.kind.isDefinition then (coder f).run { above := [p] }

end MiniC.Emit

namespace MiniC

/-- The code of a program: the fault that ended it early, if there was one, the code, and the symbol table. -/
def generate (program : Node) (table : SymbolTable) : Option Fault × List Line × SymbolTable :=
  let (result, s) := (Emit.program program).run.run { table }
  let fault := match result with
    | .ok _ => none
    | .error f => some f
  (fault, s.code.toList, s.table)

end MiniC
