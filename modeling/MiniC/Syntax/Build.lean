import MiniC.Grammar.C
import MiniC.Syntax.Node
import MiniC.Text.Escape

/-!
# Syntax trees from parse trees

A parse tree is walked from left to right with the nodes under construction on a stack, innermost first.
Each rule either opens a node, which is closed when the rule is left, or adds to the innermost open node, or
does nothing: a level of the expression grammar that holds no operator has no node of its own.

A parse tree with errors may close more nodes than it has opened; `build` then fails only if an open node
that is needed is not there.
-/

namespace MiniC

/-- The rules of the grammar that matter for syntax trees. -/
inductive Form where
  | comma | assignment | conditional | disjunction | conjunction | equality | relation | sum | product
  | prefixed | suffixed | cast
  | program | stdInclude | customInclude | functionDeclaration | functionDefinition
  | parameters | parameter | parameterShape | pointerPart | arrayPart
  | statements | statement | ifCond | elseCond | whileCond | doWhileCond
  | forLoop | forInitializer | forCondition | forIteration
  | variableDeclaration | constWord | declarator | declaratorShape | initializer
  | returnStmt | breakStmt | continueStmt | arguments | call | name | identifier | typeWord
  | float | integer | character | string
  | other
  deriving DecidableEq, Repr, Inhabited

namespace Form

def ofName : String → Form
  | "oplevel15" => comma
  | "oplevel14" => assignment
  | "oplevel13" => conditional
  | "oplevel12" => disjunction
  | "oplevel11" => conjunction
  | "oplevel7" => equality
  | "oplevel6" => relation
  | "oplevel4" => sum
  | "oplevel3" => product
  | "oplevel2" => prefixed
  | "oplevel1" => suffixed
  | "typeCast" => cast
  | "program" => program
  | "stdInclude" => stdInclude
  | "customInclude" => customInclude
  | "functionDeclaration" => functionDeclaration
  | "functionDefinition" => functionDefinition
  | "parameters" => parameters
  | "parameter" => parameter
  | "paramDeclarator1" => parameterShape
  | "pointerPart" => pointerPart
  | "arrayPart" => arrayPart
  | "statements" => statements
  | "statement" => statement
  | "ifCond" => ifCond
  | "elseCond" => elseCond
  | "whileCond" => whileCond
  | "doWhileCond" => doWhileCond
  | "forLoop" => forLoop
  | "forLoopInitStatement" => forInitializer
  | "forLoopCondition" => forCondition
  | "forLoopIterationExpression" => forIteration
  | "variableDeclaration" => variableDeclaration
  | "cvQualifier" => constWord
  | "declaratorInitializer" => declarator
  | "declarator1" => declaratorShape
  | "initializer" => initializer
  | "returnStmt" => returnStmt
  | "breakStmt" => breakStmt
  | "continueStmt" => continueStmt
  | "arguments" => arguments
  | "functionCall" => call
  | "variable" => name
  | "identifier" => identifier
  | "typeDeclaration" => typeWord
  | "floatLiteral" => float
  | "integerLiteral" => integer
  | "characterLiteral" => character
  | "stringLiteral" => string
  | _ => other

/-- By the number of the rule. -/
def table : Array Form := Grammar.c.ruleNames.map ofName

def ofRule (rule : Int) : Form := (entryAt? table rule).getD .other

def ofTree (t : ParseTree) : Form :=
  match t.info? with
  | some info => ofRule info.rule
  | none => .other

end Form

inductive Part where
  | initializer
  | condition
  | iteration
  deriving DecidableEq, Repr, Inhabited

structure Parts (α : Type) where
  initializer : α
  condition : α
  iteration : α
  deriving Inhabited

namespace Parts

def get {α : Type} (ps : Parts α) : Part → α
  | .initializer => ps.initializer
  | .condition => ps.condition
  | .iteration => ps.iteration

def set {α : Type} (ps : Parts α) (part : Part) (a : α) : Parts α :=
  match part with
  | .initializer => { ps with initializer := a }
  | .condition => { ps with condition := a }
  | .iteration => { ps with iteration := a }

end Parts

structure OpenNode where
  id : Nat
  kind : Kind
  origin : Option ParseTree
  children : Array Node := #[]
  /-- What was found in each part of the header. -/
  found : Parts (Array Node) := ⟨#[], #[], #[]⟩
  /-- What each part of the header holds. -/
  header : Parts (Option Node) := ⟨none, none, none⟩

/-- An open node, or the part of a header that is being read. -/
inductive Open where
  | node (n : OpenNode)
  | part (part : Part) (children : Array Node)

namespace OpenNode

def close (n : OpenNode) : Node :=
  let header := n.header.initializer.toList ++ n.header.condition.toList ++ n.header.iteration.toList
  let kind := match n.kind with
    | .forLoop .. =>
      .forLoop n.header.initializer.isSome n.header.condition.isSome n.header.iteration.isSome
    | kind => kind
  .mk n.id kind n.origin (header ++ n.children.toList)

end OpenNode

namespace Open

def children : Open → Array Node
  | node n => n.children
  | part _ cs => cs

def push (child : Node) : Open → Open
  | node n => node { n with children := n.children.push child }
  | part p cs => part p (cs.push child)

end Open

/-- A tree under construction: the number of the next node, the open nodes, and the root once it is closed. -/
structure Builder where
  next : Nat := 0
  opened : List Open := []
  root : Option Node := none

inductive Leave where
  | nothing
  | close
  /-- Close a node and forget its children. -/
  | closeBare
  | closePart (part : Part)
  deriving DecidableEq, Repr

namespace Builder

def top (b : Builder) : Except Fault Open :=
  match b.opened with
  | o :: _ => pure o
  | [] => throw .missing

def topKind? (b : Builder) : Option Kind :=
  match b.opened with
  | .node n :: _ => some n.kind
  | _ => none

def mapTop (b : Builder) (f : Kind → Kind) : Builder :=
  match b.opened with
  | .node n :: rest => { b with opened := .node { n with kind := f n.kind } :: rest }
  | _ => b

/-- The most children that a node of a kind takes, and what is said if it gets more. -/
def arity : Kind → Option (Nat × String)
  | .unary .. | .addressOf | .dereference | .logicalNot =>
    some (1, "ASTUnaryOperatorNode cannot have more than one child")
  | .comma | .assign | .logic _ | .compare _ | .arith _ =>
    some (2, "ASTBinaryOperatorNode cannot have more than two children")
  | .conditional => some (3, "ASTTernaryOperatorNode cannot have more than three children")
  | .subscript => some (2, "ASTArraySubscriptNode cannot have more than two children")
  | _ => none

def checkRoom (kind : Kind) (count : Nat) : Except Fault Unit :=
  match arity kind with
  | some (most, message) => if count < most then pure () else throw (.illegal message)
  | none => pure ()

def openNode (b : Builder) (kind : Except Fault Kind) (origin : Option ParseTree) :
    Except Fault (Builder × Leave) := do
  let o ← b.top
  let kind ← kind
  match o with
  | .node n => checkRoom n.kind n.children.size
  | .part .. => pure ()
  return ({ b with next := b.next + 1, opened := .node { id := b.next, kind, origin } :: b.opened }, .close)

def close (b : Builder) : Except Fault Builder :=
  match b.opened with
  | [] => throw .missing
  | .node n :: [] => pure { b with opened := [], root := some n.close }
  | .node n :: parent :: rest => pure { b with opened := parent.push n.close :: rest }
  | .part p cs :: .node n :: rest =>
    pure { b with opened := .node { n with found := n.found.set p cs } :: rest }
  | .part _ _ :: rest => pure { b with opened := rest }

/-- Starts to read a part of the header of the innermost open loop. -/
def openPart (b : Builder) (p : Part) : Except Fault (Builder × Leave) :=
  match b.opened with
  | .node n :: _ =>
    if n.kind.isFor then pure ({ b with opened := .part p (n.found.get p) :: b.opened }, .closePart p)
    else throw .missing
  | _ => throw .missing

/-- Ends a part of a header: its first child is what the loop around it takes. -/
def closePart (b : Builder) (p : Part) : Except Fault Builder := do
  let o ← b.top
  match o.children[0]?, b.opened with
  | some child, inner :: .node n :: rest =>
    close { b with opened := inner :: .node { n with header := n.header.set p (some child) } :: rest }
  | some _, [_] => throw .missing
  | _, _ => b.close

def leave (b : Builder) : Leave → Except Fault Builder
  | .nothing => pure b
  | .close => b.close
  | .closeBare =>
    match b.opened with
    | .node n :: rest => close { b with opened := .node { n with children := #[] } :: rest }
    | .part p _ :: rest => close { b with opened := .part p #[] :: rest }
    | [] => throw .missing
  | .closePart p => b.closePart p

end Builder

namespace Kind

def mapSpecifiers (f : Specifiers → Specifiers) : Kind → Kind
  | function head => function { head with spec := f head.spec }
  | parameter head => parameter { head with spec := f head.spec }
  | variableDeclaration spec => variableDeclaration (f spec)
  | cast spec layers => cast (f spec) layers
  | kind => kind

def addLayers? (layers : List Layer) : Kind → Option Kind
  | function head => some (function { head with layers := head.layers ++ layers })
  | parameter head => some (parameter { head with layers := head.layers ++ layers })
  | declarator head => some (declarator { head with layers := head.layers ++ layers })
  | cast spec old => some (cast spec (old ++ layers))
  | _ => none

def setName (text : String) : Kind → Kind
  | function head => function { head with name := some text }
  | parameter head => parameter { head with name := some text }
  | declarator head => declarator { head with name := some text }
  | name _ type symbol => name text type symbol
  | call _ callee pieces => call (some text) callee pieces
  | kind => kind

/-- Pointers before a function or in a cast belong to it at once. -/
def takesPointers : Kind → Bool
  | function _ => true
  | cast .. => true
  | _ => false

def takesArrays : Kind → Bool
  | parameter _ => true
  | declarator _ => true
  | _ => false

end Kind

namespace Builder

/-- A pointer is constant if a word follows its star. -/
def pointerLayer (t : ParseTree) : Layer := ⟨.scalar, t.children.length == 2⟩

/-- The layers of one level of a declarator: its pointers, then its arrays from the last to the first. -/
def shapeLayers (children : List ParseTree) : List Layer :=
  let pointers := (children.filter fun c => Form.ofTree c == .pointerPart).map pointerLayer
  let arrays := children.filter fun c => Form.ofTree c == .arrayPart
  pointers ++ arrays.map fun _ => ⟨.unknown, false⟩

def unquoted (text : String) : String := String.ofList ((text.toList.drop 1).dropLast)

def maxDigits : Nat := 4300

def integerKind (text : String) : Except Fault Kind :=
  let digits := text.toList
  if digits.isEmpty || digits.any (fun c => !c.isDigit) || maxDigits < digits.length then throw .malformed
  else pure (.integer (Binary64.digitsValue digits))

def stringKind (raw : String) : Except Fault Kind := do
  let codes ← Escape.decode raw
  return .string raw codes

/-- The operator between the operands of a binary level, by the text of its second child. -/
def binaryKind (form : Form) (sign : String) : Option Kind :=
  match form, sign with
  | .assignment, "=" => some .assign
  | .disjunction, "||" => some (.logic .disj)
  | .conjunction, "&&" => some (.logic .conj)
  | .equality, "!=" => some (.compare .ne)
  | .equality, _ => some (.compare .eq)
  | .relation, "<" => some (.compare .lt)
  | .relation, ">" => some (.compare .gt)
  | .relation, "<=" => some (.compare .le)
  | .relation, ">=" => some (.compare .ge)
  | .sum, sign | .product, sign =>
    match sign with
    | "+" => some (.arith .add)
    | "-" => some (.arith .sub)
    | "*" => some (.arith .mul)
    | "/" => some (.arith .div)
    | "%" => some (.arith .mod)
    | _ => none
  | _, _ => none

def prefixKind : String → Option Kind
  | "++" => some (.unary .increment .before)
  | "--" => some (.unary .decrement .before)
  | "+" => some (.unary .plus .before)
  | "-" => some (.unary .minus .before)
  | "&" => some .addressOf
  | "*" => some .dereference
  | "!" => some .logicalNot
  | _ => none

def functionKind (form : FunctionForm) : Kind := .function { form }

def enterOperator (b : Builder) (form : Form) (t : ParseTree) : Except Fault (Builder × Leave) :=
  let stay : Except Fault (Builder × Leave) := pure (b, .nothing)
  let make (kind : Kind) := b.openNode (pure kind) (some t)
  match form, t.children with
  | .comma, _ :: _ :: _ => make .comma
  | .conditional, [_, c, _, d, _] => if c.text == "?" && d.text == ":" then make .conditional else stay
  | .prefixed, [c, _] =>
    match prefixKind c.text with
    | some kind => make kind
    | none => stay
  | .suffixed, [_, c] =>
    match c.text with
    | "++" => make (.unary .increment .after)
    | "--" => make (.unary .decrement .after)
    | _ => pure (b, .close)
  | .suffixed, [_, c, _, d] => if c.text == "[" && d.text == "]" then make .subscript else stay
  | .equality, [_, c, _] | .relation, [_, c, _] =>
    if c.isLeaf then
      match binaryKind form c.text with
      | some kind => make kind
      | none => stay
    else throw .missing
  | form, [_, c, _] =>
    match binaryKind form c.text with
    | some kind => make kind
    | none => stay
  | _, _ => stay

/-- Enters a rule: what is open then, and what is to be done when the rule is left. -/
def enter (b : Builder) (form : Form) (t : ParseTree) : Except Fault (Builder × Leave) :=
  let stay : Except Fault (Builder × Leave) := pure (b, .nothing)
  let make (kind : Kind) := b.openNode (pure kind) (some t)
  let makeBare (kind : Kind) := b.openNode (pure kind) none
  match form with
  | .program =>
    pure ({ b with next := b.next + 1, opened := [.node { id := b.next, kind := .program, origin := none }] },
      .nothing)
  | .stdInclude => makeBare (.includeFile true t.text)
  | .customInclude => do
    let (b, _) ← makeBare (.includeFile false (unquoted t.text))
    return (b, .closeBare)
  | .statements => makeBare .statements
  | .statement => make .statement
  | .returnStmt => make .returnStmt
  | .breakStmt => make .breakStmt
  | .continueStmt => make .continueStmt
  | .variableDeclaration => makeBare (.variableDeclaration {})
  | .constWord => do
    let _ ← b.top
    return (b.mapTop (Kind.mapSpecifiers fun s => { s with const := true }), .nothing)
  | .typeWord => do
    let _ ← b.top
    let base := BaseType.ofName t.text
    return (b.mapTop (Kind.mapSpecifiers fun s => { s with base, typed := true }), .nothing)
  | .declaratorShape | .parameterShape =>
    match shapeLayers t.children with
    | [] => stay
    | layers =>
      match b.topKind?.bind (Kind.addLayers? layers) with
      | some kind => pure (b.mapTop fun _ => kind, .nothing)
      | none => throw .missing
  | .pointerPart =>
    match b.topKind? with
    | some kind =>
      if kind.takesPointers then
        pure (b.mapTop fun k => (k.addLayers? [pointerLayer t]).getD k, .nothing)
      else stay
    | none => stay
  | .declarator => make (.declarator {})
  | .name => make (.name t.text none none)
  | .functionDeclaration => make (functionKind .declaration)
  | .functionDefinition =>
    let name := t.children.find? fun c => Form.ofTree c == .identifier
    make (functionKind (if name.any (·.text == "main") then .main else .definition))
  | .parameters => makeBare .parameters
  | .parameter => make (.parameter {})
  | .arrayPart =>
    if (b.topKind?.any Kind.takesArrays) then make .arrayPart else throw .missing
  | .call => make (.call none none none)
  | .arguments => make .arguments
  | .initializer =>
    match t.info?.bind (·.label) with
    | some "arrayInitializer" => make (.initializerList true)
    | some "expressionInitializer" => make (.initializerList false)
    | _ => stay
  | .ifCond => make .ifStmt
  | .elseCond => make .elseBranch
  | .forLoop => make (.forLoop false false false)
  | .forInitializer => b.openPart .initializer
  | .forCondition => b.openPart .condition
  | .forIteration => b.openPart .iteration
  | .whileCond => make .whileLoop
  | .doWhileCond => make .doWhile
  | .float => make (.float (Binary64.ofText t.text))
  | .integer => b.openNode (integerKind t.text) (some t)
  | .character => make (.character t.text)
  | .string => b.openNode (stringKind (unquoted t.text)) (some t)
  | .identifier => pure (b.mapTop (Kind.setName t.text), .nothing)
  | .cast => make (.cast {} [])
  | .other => stay
  | operator => b.enterOperator operator t

mutual

/-- Builds what a parse tree stands for, below the innermost open node. -/
def walk (b : Builder) : ParseTree → Except Fault Builder
  | .leaf _ _ => pure b
  | .node info children => do
    let (b, atEnd) ← b.enter (Form.ofRule info.rule) (.node info children)
    let b ← walkAll b children
    b.leave atEnd

def walkAll (b : Builder) : List ParseTree → Except Fault Builder
  | [] => pure b
  | t :: ts => do
    let b ← walk b t
    walkAll b ts

end

def finish : Nat → Builder → Except Fault Node
  | 0, _ => throw .missing
  | fuel + 1, b =>
    match b.root, b.opened with
    | some root, [] => pure root
    | _, _ => do
      let b ← b.close
      finish fuel b

end Builder

def Node.ofParseTree (t : ParseTree) : Except Fault Node := do
  let b ← Builder.walk {} t
  Builder.finish (b.opened.length + 1) b

end MiniC
