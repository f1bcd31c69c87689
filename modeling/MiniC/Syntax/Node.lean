import MiniC.CType
import MiniC.Number.Binary64
import MiniC.Parse.Tree

/-!
# Syntax trees

A node has a number, a kind, the parse tree it came from, and children. The kind carries all that belongs to
the node itself: the literal, the operator, the head of a declaration. What later passes find out about a
node, such as the symbol that a name stands for, is filled in to its kind.

The parts of the header of a `for` loop stand in front of its other children; the kind says which are there.
-/

namespace MiniC

/-- What the words in front of a declaration say. -/
structure Specifiers where
  base : BaseType := .int
  /-- A base type was written. -/
  typed : Bool := false
  const : Bool := false
  deriving DecidableEq, Repr, Inhabited

inductive FunctionForm where
  | declaration
  | definition
  | main
  deriving DecidableEq, Repr, Inhabited

namespace FunctionForm

def isDefinition : FunctionForm → Bool
  | declaration => false
  | _ => true

end FunctionForm

structure FunctionHead where
  form : FunctionForm
  spec : Specifiers := {}
  name : Option String := none
  layers : List Layer := []
  deriving DecidableEq, Repr, Inhabited

structure ParameterHead where
  spec : Specifiers := {}
  name : Option String := none
  layers : List Layer := []
  deriving DecidableEq, Repr, Inhabited

/-- What is declared by a declarator; its specifiers stand in the declaration around it. -/
structure DeclaratorHead where
  name : Option String := none
  layers : List Layer := []
  /-- The number of the symbol that was entered for it. -/
  symbol : Option Nat := none
  deriving DecidableEq, Repr, Inhabited

/-- What a call knows of the function that is called. -/
structure Callee where
  name : String
  type : CType
  /-- The types of the parameters; a library function has none. -/
  params : Option (List CType)
  isLibrary : Bool
  deriving DecidableEq, Repr, Inhabited

inductive Piece where
  | text (raw : String)
  | field (width : Int) (argument : Nat)
  deriving DecidableEq, Repr, Inhabited

inductive ArithOp where
  | add
  | sub
  | mul
  | div
  | mod
  deriving DecidableEq, Repr, Inhabited

def ArithOp.sign : ArithOp → String
  | add => "+"
  | sub => "-"
  | mul => "*"
  | div => "/"
  | mod => "%"

inductive CompareOp where
  | lt
  | gt
  | le
  | ge
  | eq
  | ne
  deriving DecidableEq, Repr, Inhabited

def CompareOp.sign : CompareOp → String
  | lt => "<"
  | gt => ">"
  | le => "<="
  | ge => ">="
  | eq => "=="
  | ne => "!="

inductive LogicOp where
  | conj
  | disj
  deriving DecidableEq, Repr, Inhabited

def LogicOp.word : LogicOp → String
  | conj => "and"
  | disj => "or"

inductive UnaryOp where
  | increment
  | decrement
  | plus
  | minus
  deriving DecidableEq, Repr, Inhabited

namespace UnaryOp

def sign : UnaryOp → String
  | increment => "++"
  | decrement => "--"
  | plus => "+"
  | minus => "-"

def word : UnaryOp → String
  | increment => "increment"
  | decrement => "decrement"
  | plus => "unary plus"
  | minus => "unary minus"

def isStep : UnaryOp → Bool
  | increment => true
  | decrement => true
  | _ => false

end UnaryOp

inductive Side where
  | before
  | after
  deriving DecidableEq, Repr, Inhabited

def Side.word : Side → String
  | before => "prefix"
  | after => "postfix"

inductive Kind where
  | program
  | includeFile (std : Bool) (name : String)
  | function (head : FunctionHead)
  | parameters
  | parameter (head : ParameterHead)
  | arguments
  | initializerList (isArray : Bool)
  | arrayPart
  | statements
  | statement
  | returnStmt
  | breakStmt
  | continueStmt
  | ifStmt
  | elseBranch
  /-- A loop, with which parts of its header are there. -/
  | forLoop (initializer condition iteration : Bool)
  | whileLoop
  | doWhile
  | variableDeclaration (spec : Specifiers)
  | declarator (head : DeclaratorHead)
  | integer (value : Int)
  | float (value : Binary64)
  | character (text : String)
  | string (raw : String) (codes : List Nat)
  | name (text : String) (type : Option CType) (symbol : Option Nat)
  | call (name : Option String) (callee : Option Callee) (pieces : Option (List Piece))
  | cast (spec : Specifiers) (layers : List Layer)
  | unary (op : UnaryOp) (side : Side)
  | addressOf
  | dereference
  | logicalNot
  | subscript
  | comma
  | assign
  | logic (op : LogicOp)
  | compare (op : CompareOp)
  | arith (op : ArithOp)
  | conditional
  deriving DecidableEq, Repr, Inhabited

namespace Kind

def isExpression : Kind → Bool
  | integer _ | float _ | character _ | string .. | name .. | call .. | cast .. | unary .. | addressOf
  | dereference | logicalNot | subscript | comma | assign | logic _ | compare _ | arith _ | conditional => true
  | _ => false

def isStatement : Kind → Bool
  | statement | returnStmt | breakStmt | continueStmt | ifStmt | forLoop .. | whileLoop | doWhile
  | variableDeclaration _ => true
  | _ => false

def isInitializerList : Kind → Bool
  | initializerList _ => true
  | _ => false

def isArrayPart : Kind → Bool
  | arrayPart => true
  | _ => false

def isString : Kind → Bool
  | string .. => true
  | _ => false

def isInteger : Kind → Bool
  | integer _ => true
  | _ => false

def isName : Kind → Bool
  | name .. => true
  | _ => false

def isFor : Kind → Bool
  | forLoop .. => true
  | _ => false

def isLoop : Kind → Bool
  | forLoop .. => true
  | whileLoop => true
  | _ => false

def isDefinition : Kind → Bool
  | function head => head.form.isDefinition
  | _ => false

def isDeclaration : Kind → Bool
  | function head => !head.form.isDefinition
  | _ => false

/-- What a declaration says about the base type. -/
def specifiers? : Kind → Option Specifiers
  | function head => some head.spec
  | parameter head => some head.spec
  | variableDeclaration spec => some spec
  | cast spec _ => some spec
  | _ => none

end Kind

inductive Node where
  | mk (id : Nat) (kind : Kind) (origin : Option ParseTree) (children : List Node)
  deriving Inhabited, Repr

namespace Node

def id : Node → Nat
  | mk id _ _ _ => id

def kind : Node → Kind
  | mk _ kind _ _ => kind

def origin : Node → Option ParseTree
  | mk _ _ origin _ => origin

def children : Node → List Node
  | mk _ _ _ children => children

def withKind (kind : Kind) : Node → Node
  | mk id _ origin children => mk id kind origin children

def withChildren (children : List Node) : Node → Node
  | mk id kind origin _ => mk id kind origin children

def child (n : Node) (i : Nat) : Except Fault Node :=
  match n.children[i]? with
  | some c => pure c
  | none => throw .outOfRange

/-- The brackets of a declarator or parameter, in the order in which they are written. -/
def arrayParts (n : Node) : List Node := n.children.filter (·.kind.isArrayPart)

def initializer? (n : Node) : Option Node := (n.children.filter (·.kind.isInitializerList)).getLast?

def parameters? (n : Node) : Option Node := n.children.find? (·.kind == .parameters)

def arguments? (n : Node) : Option Node := n.children.find? (·.kind == .arguments)

/-- The parts of the header of a loop: what is done first, the condition, what is done after each round. -/
structure Header where
  initializer : Option Node
  condition : Option Node
  iteration : Option Node

def headerSize (n : Node) : Nat :=
  match n.kind with
  | .forLoop a b c => a.toNat + b.toNat + c.toNat
  | _ => 0

def header (n : Node) : Header :=
  match n.kind with
  | .forLoop a b c =>
    { initializer := if a then n.children[0]? else none
      condition := if b then n.children[a.toNat]? else none
      iteration := if c then n.children[a.toNat + b.toNat]? else none }
  | _ => ⟨none, none, none⟩

def body (n : Node) : List Node := n.children.drop n.headerSize

end Node

end MiniC
