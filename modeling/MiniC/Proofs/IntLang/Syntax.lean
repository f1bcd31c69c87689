import MiniC.Syntax.Node

/-!
# The integer language

Programs whose values are all integers: global variables, functions with parameters, blocks, conditionals,
loops, and expressions with assignments and calls. `readProgram` gives the program that a syntax tree stands
for, if it is one of this language; it does not look at what the passes fill in.
-/

namespace MiniC.IntLang

inductive Expr where
  | int (n : Int)
  | var (x : String)
  | call (f : String) (args : List Expr)
  | plus (e : Expr)
  | minus (e : Expr)
  | not (e : Expr)
  | arith (op : ArithOp) (l r : Expr)
  | compare (op : CompareOp) (l r : Expr)
  | logic (op : LogicOp) (l r : Expr)
  | cond (c a b : Expr)
  | comma (a b : Expr)
  | assign (x : String) (e : Expr)
  /-- Adds one to a variable, or takes it away; the value is the one before or after that. -/
  | step (up : Bool) (side : Side) (x : String)
  deriving Inhabited

/-- Statements; a list of them is a sequence that ends in `skip`. -/
inductive Stmt where
  | skip
  | seq (a b : Stmt)
  | expr (e : Expr)
  | decl (x : String) (init : Option Expr)
  | ret (e : Expr)
  | brk
  | cont
  | block (s : Stmt)
  | ifThen (c : Expr) (a : Stmt)
  | ifElse (c : Expr) (a b : Stmt)
  | whileLoop (c : Expr) (s : Stmt)
  | forLoop (init : Stmt) (c it : Option Expr) (s : Stmt)
  deriving Inhabited

structure Function where
  name : String
  params : List String
  body : Stmt
  deriving Inhabited

inductive Item where
  | var (x : String) (init : Option Expr)
  | function (f : Function)
  deriving Inhabited

abbrev Program := List Item

/-! ## Programs in syntax trees -/

mutual

def readExpr : Node → Option Expr
  | .mk _ kind _ children =>
    match kind, children with
    | .integer n, [] => some (.int n)
    | .name x _ _, [] => some (.var x)
    | .call (some f) _ _, [.mk _ .arguments _ args] => (readArgs args).map (.call f)
    | .unary .plus _, [e] => (readExpr e).map .plus
    | .unary .minus _, [e] => (readExpr e).map .minus
    | .unary .increment side, [.mk _ (.name x _ _) _ []] => some (.step true side x)
    | .unary .decrement side, [.mk _ (.name x _ _) _ []] => some (.step false side x)
    | .logicalNot, [e] => (readExpr e).map .not
    | .arith op, [l, r] => (readExpr l).bind fun l => (readExpr r).map (.arith op l)
    | .compare op, [l, r] => (readExpr l).bind fun l => (readExpr r).map (.compare op l)
    | .logic op, [l, r] => (readExpr l).bind fun l => (readExpr r).map (.logic op l)
    | .conditional, [c, a, b] =>
      (readExpr c).bind fun c => (readExpr a).bind fun a => (readExpr b).map (.cond c a)
    | .comma, [a, b] => (readExpr a).bind fun a => (readExpr b).map (.comma a)
    | .assign, [.mk _ (.name x _ _) _ [], e] => (readExpr e).map (.assign x)
    | _, _ => none

def readArgs : List Node → Option (List Expr)
  | [] => some []
  | n :: ns => (readExpr n).bind fun e => (readArgs ns).map (e :: ·)

end

/-- The declaration of one variable. -/
def readDeclarator : Node → Option (String × Option Expr)
  | .mk _ (.declarator ⟨some x, [], _⟩) _ [] => some (x, none)
  | .mk _ (.declarator ⟨some x, [], _⟩) _ [.mk _ (.initializerList false) _ [e]] =>
    (readExpr e).map fun e => (x, some e)
  | _ => none

def readDeclarators : List Node → Option Stmt
  | [] => some .skip
  | d :: ds => (readDeclarator d).bind fun (x, init) => (readDeclarators ds).map (.seq (.decl x init))

/-- What a loop does first: declarations, or an expression. -/
def readInitializer : Option Node → Option Stmt
  | none => some .skip
  | some (.mk id kind origin children) =>
    match kind with
    | .variableDeclaration spec => if spec.base = .int then readDeclarators children else none
    | _ => (readExpr (.mk id kind origin children)).map .expr

def readOption : Option Node → Option (Option Expr)
  | none => some none
  | some n => (readExpr n).map some

/-- The iteration part of a loop is told from the other parts by its number. -/
def partsDiffer (h : Node.Header) : Bool :=
  h.iteration.all fun t => h.initializer.all (·.id != t.id) && h.condition.all (·.id != t.id)

mutual

/-- A statement node, which holds at most one thing. -/
def readStmt : Node → Option Stmt
  | .mk _ .statement _ [] => some .skip
  | .mk _ .statement _ [n] => readInner n
  | _ => none

def readInner : Node → Option Stmt
  | .mk id kind origin children =>
    let n := Node.mk id kind origin children
    match kind, children with
    | .statements, ss => (readStmts ss).map .block
    | .ifStmt, [c, a] => (readExpr c).bind fun c => (readStmt a).map (.ifThen c)
    | .ifStmt, [c, a, .mk _ .elseBranch _ [b]] =>
      (readExpr c).bind fun c => (readStmt a).bind fun a => (readStmt b).map (.ifElse c a)
    | .whileLoop, [c, a] => (readExpr c).bind fun c => (readStmt a).map (.whileLoop c)
    | .forLoop .., parts =>
      match (readEach parts).drop n.headerSize with
      | [some s] =>
        if partsDiffer n.header then
          (readInitializer n.header.initializer).bind fun init => (readOption n.header.condition).bind fun c =>
            (readOption n.header.iteration).map fun it => .forLoop init c it s
        else none
      | _ => none
    | .returnStmt, [e] => (readExpr e).map .ret
    | .breakStmt, [] => some .brk
    | .continueStmt, [] => some .cont
    | .variableDeclaration spec, ds => if spec.base = .int then readDeclarators ds else none
    | _, _ => (readExpr n).map .expr

def readStmts : List Node → Option Stmt
  | [] => some .skip
  | n :: ns => (readStmt n).bind fun s => (readStmts ns).map (.seq s)

def readEach : List Node → List (Option Stmt)
  | [] => []
  | n :: ns => readStmt n :: readEach ns

end

def readParameter : Node → Option String
  | .mk _ (.parameter ⟨spec, some x, []⟩) _ [] => if spec.base = .int then some x else none
  | _ => none

/-- The names of parameters; a lone `void` stands for none. -/
def readParameters : List Node → Option (List String)
  | [.mk _ (.parameter ⟨⟨.void, _, _⟩, none, []⟩) _ []] => some []
  | ns => ns.mapM readParameter

def readFunction : Node → Option Function
  | .mk _ (.function ⟨form, spec, some f, []⟩) _ [.mk _ .parameters _ ps, .mk _ .statements _ ss] =>
    if form.isDefinition ∧ spec.base = .int then
      (readParameters ps).bind fun ps => (readStmts ss).map fun s => ⟨f, ps, s⟩
    else none
  | _ => none

def readVariables : List Node → Option Program
  | [] => some []
  | d :: ds => (readDeclarator d).bind fun (x, init) => (readVariables ds).map (.var x init :: ·)

def readItems : List Node → Option Program
  | [] => some []
  | .mk id kind origin children :: rest =>
    match kind with
    | .variableDeclaration spec =>
      if spec.base = .int then (readVariables children).bind fun vs => (readItems rest).map (vs ++ ·) else none
    | _ => (readFunction (.mk id kind origin children)).bind fun f => (readItems rest).map (.function f :: ·)

/-- The program that a syntax tree stands for, if it is one of the integer language. -/
def readProgram : Node → Option Program
  | .mk _ .program _ children => readItems children
  | _ => none

end MiniC.IntLang
