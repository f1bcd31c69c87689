import MiniC.Code.InputOutput
import MiniC.Proofs.IntLang.Semantics
import MiniC.Proofs.Machine.Run

/-!
# Code of the integer language

The machine code of an expression, a statement and a program, as functions of what is bound and of the number
of labels made before. No label stands in two places of it.
-/

namespace MiniC.IntLang

@[simp] theorem size_code (is : List Instr) : Machine.size (Emit.code is) = is.length := Machine.size_map_instr is

@[simp] theorem labels_code (is : List Instr) : Machine.labels (Emit.code is) = [] := Machine.labels_map_instr is

/-! ## Code -/

/-- The number of frames to go outwards to a variable. -/
def Env.level (env : Env) : Var → Int
  | .frame _ => 0
  | .global _ => if env.scopes.isEmpty then 0 else 1

/-- The place of a variable in its frame. -/
def Var.offset : Var → Int
  | .frame i => i + Emit.frameOffset
  | .global i => i + Emit.frameOffset

/-- An instruction on the variable of a name. -/
def access (env : Env) (x : String) (make : Int → Int → Instr) : List Line :=
  match env.find? x with
  | some w => [.instr (make (env.level w) w.offset)]
  | none => []

def stepInstr (up : Bool) : Instr := if up then .inc .int 1 else .dec .int 1

/-- The code for a remainder behind that of the divisor. -/
def remainderEnd : List Instr :=
  [.sto .int, .ldc .address (.number 0), .ind .int, .arith .div .int, .ldc .address (.number 0), .ind .int,
    .arith .mul .int, .arith .sub .int]

def arithEnd : ArithOp → List Instr
  | .add => [.arith .add .int]
  | .sub => [.arith .sub .int]
  | .mul => [.arith .mul .int]
  | .div => [.arith .div .int]
  | .mod => remainderEnd

/-- The code between the operands of an operation. -/
def arithMiddle : ArithOp → List Instr
  | .mod => [.dpl .int, .ldc .address (.number 0)]
  | _ => []

mutual

/-- The number of labels in the code of an expression. -/
def Expr.labels : Expr → Nat
  | .call _ args => labelsAll args
  | .plus e | .minus e | .not e | .assign _ e => e.labels
  | .arith _ l r | .compare _ l r | .logic _ l r | .comma l r => l.labels + r.labels
  | .cond c a b => 2 + c.labels + a.labels + b.labels
  | _ => 0

def labelsAll : List Expr → Nat
  | [] => 0
  | e :: es => e.labels + labelsAll es

end

mutual

/-- The code of an expression, which leaves its value on the stack. -/
def Expr.code (env : Env) : Expr → Nat → List Line
  | .int v, _ => Emit.code [.ldc .int (.number v)]
  | .var x, _ => access env x fun level offset => .lod .int (some level) offset
  | .call f args, n => Emit.code [.mst 1] ++ codeAll env args n ++ Emit.code [.cup args.length (.function f)]
  | .plus e, n => e.code env n
  | .minus e, n => e.code env n ++ Emit.code [.neg .int]
  | .not e, n => e.code env n ++ Emit.code [.conv .int .bool, .not, .conv .bool .int]
  | .arith op l r, n =>
    l.code env n ++ Emit.code (arithMiddle op) ++ r.code env (n + l.labels) ++ Emit.code (arithEnd op)
  | .compare op l r, n =>
    l.code env n ++ r.code env (n + l.labels) ++ Emit.code [.compare op .int, .conv .bool .int]
  | .logic op l r, n =>
    l.code env n ++ Emit.code [.conv .int .bool] ++ r.code env (n + l.labels)
      ++ Emit.code [.conv .int .bool, .logic op, .conv .bool .int]
  | .cond c a b, n =>
    c.code env (n + 2) ++ Emit.code [.conv .int .bool, .fjp (.numbered (n + 1) .elseBranch)]
      ++ a.code env (n + 2 + c.labels)
      ++ [.instr (.ujp (.numbered (n + 2) .afterIf)), .label (.numbered (n + 1) .elseBranch)]
      ++ b.code env (n + 2 + c.labels + a.labels) ++ [.label (.numbered (n + 2) .afterIf)]
  | .comma a b, n =>
    Emit.code [.ldc .address (.number 0)] ++ a.code env n ++ Emit.code [.sto .int] ++ b.code env (n + a.labels)
  | .assign x e, n =>
    access env x (fun level offset => .lda (some level) offset) ++ Emit.code [.dpl .address] ++ e.code env n
      ++ Emit.code [.sto .int, .ind .int]
  | .step up side x, _ =>
    access env x (fun level offset => .lda (some level) offset)
      ++ Emit.code ([.dpl .address, .dpl .address, .ind .int, stepInstr up, .sto .int, .ind .int]
        ++ if side = .after then [stepInstr !up] else [])

def codeAll (env : Env) : List Expr → Nat → List Line
  | [], _ => []
  | e :: es, n => e.code env n ++ codeAll env es (n + e.labels)

end

/-- The code of an expression whose value is stored away; that of a negation is left. -/
def Expr.dropped (env : Env) (e : Expr) (n : Nat) : List Line :=
  match e with
  | .not _ => e.code env n
  | _ => Emit.code [.ldc .address (.number 0)] ++ e.code env n ++ Emit.code [.sto .int]

def optionLabels : Option Expr → Nat
  | none => 0
  | some e => e.labels

/-- The number of labels in the code of a statement. -/
def Stmt.labels : Stmt → Nat
  | .seq a b => a.labels + b.labels
  | .expr e | .ret e => e.labels
  | .decl _ init => optionLabels init
  | .block s => s.labels
  | .ifThen c a => 2 + c.labels + a.labels
  | .ifElse c a b => 2 + c.labels + a.labels + b.labels
  | .whileLoop c s => 2 + c.labels + s.labels
  | .forLoop init c it s => 3 + init.labels + optionLabels c + s.labels + optionLabels it
  | _ => 0

/-- The first value of a declared variable, which is zero if none is given. -/
def initialCode (env : Env) (n : Nat) : Option Expr → List Line
  | none => Emit.code [.ldc .int (.number 0)]
  | some e => e.code env n

/-- Stores the first value of a declared variable. -/
def declCode (env : Env) (x : String) (init : Option Expr) (n : Nat) : List Line :=
  initialCode (env.declare x) n init ++ Emit.code [.str .int 0 (env.next + Emit.frameOffset)]

/-- The condition of a loop as a truth value. -/
def conditionCode (env : Env) (n : Nat) : Option Expr → List Line
  | none => Emit.code [.ldc .bool .truth]
  | some c => c.code env n ++ Emit.code [.conv .int .bool]

def iterationCode (env : Env) (n : Nat) : Option Expr → List Line
  | none => []
  | some e => e.dropped env n

def jumpCode : Option Label → List Line
  | none => []
  | some l => [.instr (.ujp l)]

/-- The code of what a loop does first: the value of an expression is left. -/
def initializerCode (env : Env) (n : Nat) (own : List Line) : Stmt → List Line
  | .expr e => e.code env n
  | _ => own

/-- The lines of a loop with a header, from the code of its parts. -/
def forCode (again test after : Label) (cond body iteration : List Line) : List Line :=
  [.label test] ++ cond ++ Emit.code [.fjp after] ++ body ++ [.label again] ++ iteration
    ++ [.instr (.ujp test), .label after]

/-- The code of a statement in a loop that goes on and ends at labels. -/
def Stmt.code (env : Env) (again after : Option Label) (n : Nat) : Stmt → List Line
  | .skip => []
  | .seq a b => a.code env again after n ++ b.code (a.bind env) again after (n + a.labels)
  | .expr e => e.dropped env n
  | .decl x init => declCode env x init n
  | .ret e => e.code env n ++ Emit.code [.str .int 0 0, .retf]
  | .brk => jumpCode after
  | .cont => jumpCode again
  | .block s => s.code env.opened again after n
  | .ifThen c a =>
    c.code env (n + 2) ++ Emit.code [.conv .int .bool, .fjp (.numbered (n + 1) .elseBranch)]
      ++ a.code env again after (n + 2 + c.labels) ++ [.label (.numbered (n + 1) .elseBranch)]
  | .ifElse c a b =>
    c.code env (n + 2) ++ Emit.code [.conv .int .bool, .fjp (.numbered (n + 1) .elseBranch)]
      ++ a.code env again after (n + 2 + c.labels)
      ++ [.instr (.ujp (.numbered (n + 2) .afterIf)), .label (.numbered (n + 1) .elseBranch)]
      ++ b.code (a.bind env) again after (n + 2 + c.labels + a.labels)
      ++ [.label (.numbered (n + 2) .afterIf)]
  | .whileLoop c s =>
    [.label (.numbered (n + 1) .whileCondition)] ++ c.code env (n + 2)
      ++ Emit.code [.conv .int .bool, .fjp (.numbered (n + 2) .whileAfter)]
      ++ s.code env (some (.numbered (n + 1) .whileCondition)) (some (.numbered (n + 2) .whileAfter))
        (n + 2 + c.labels)
      ++ [.instr (.ujp (.numbered (n + 1) .whileCondition)), .label (.numbered (n + 2) .whileAfter)]
  | .forLoop init c it s =>
    let inside := init.bind env.opened
    initializerCode env.opened (n + 3) (init.code env.opened none none (n + 3)) init
      ++ forCode (.numbered (n + 1) .forIteration) (.numbered (n + 2) .forCondition) (.numbered (n + 3) .forAfter)
        (conditionCode inside (n + 3 + init.labels) c)
        (s.code inside (some (.numbered (n + 1) .forIteration)) (some (.numbered (n + 3) .forAfter))
          (n + 3 + init.labels + optionLabels c))
        (iterationCode inside (n + 3 + init.labels + optionLabels c + s.labels) it)

/-- The number of cells for the variables of a function. -/
def Closure.cells (g : Closure) : Nat :=
  (g.function.body.bind (Env.ofFunction g.globals g.function.params)).next

def Closure.code (g : Closure) (n : Nat) : List Line :=
  [.blank, .label (.function g.function.name)] ++ Emit.code [.ssp (g.cells + Emit.frameOffset)]
    ++ g.function.body.code (Env.ofFunction g.globals g.function.params) none none n ++ Emit.code [.retf]

def functionsCode : List Closure → Nat → List Line
  | [], _ => []
  | g :: gs, n => g.code n ++ functionsCode gs (n + g.function.body.labels)

def globalsCode (globals : List (String × Nat)) : Program → Nat → List Line
  | [], _ => []
  | .function _ :: rest, n => globalsCode globals rest n
  | .var x init :: rest, n =>
    declCode ⟨[], globals, globals.length⟩ x init n
      ++ globalsCode ((x, globals.length) :: globals) rest (n + optionLabels init)

def globalsLabels : Program → Nat
  | [] => 0
  | .function _ :: rest => globalsLabels rest
  | .var _ init :: rest => optionLabels init + globalsLabels rest

/-- The cells at the bottom of the store, and room for globals. -/
def startCode (count : Nat) : List Instr :=
  [.ldc .int (.number 0), .ldc .int (.number 0), .ldc .int (.number 0), .ssp (count + Emit.frameOffset)]

def mainCode : List Instr := [.mst 0, .cup 0 (.function "main"), .hlt]

def programCode (p : Program) : List Line :=
  Emit.code (startCode (globalsCount p)) ++ globalsCode [] p 0 ++ Emit.code mainCode
    ++ functionsCode (closures [] p) (globalsLabels p)

end MiniC.IntLang
