import MiniC.Scope.Pass

/-!
# Filling the symbol table

The first pass over a tree makes the scopes and enters what is declared in them. It also keeps the string
literals, and checks that loops are only left from inside. A parameter that is an array is a pointer from
here on.
-/

namespace MiniC.Fill

open Pass

def parameterType (head : ParameterHead) : CType := .declared head.spec.base head.spec.const head.layers false

/-- The parameter alone is no value: it stands for an empty list of parameters, or is an error. -/
def isVoid (head : ParameterHead) : Bool := head.spec.base = .void && head.layers.isEmpty

def decay (head : ParameterHead) : ParameterHead :=
  match head.layers.getLast? with
  | some layer => { head with layers := head.layers.dropLast ++ [{ layer with extent := .scalar }] }
  | none => head

def settled (form : FunctionForm) (head : ParameterHead) : ParameterHead :=
  if form.isDefinition && !isVoid head && head.name.isSome then decay head else head

def parameterTypes (n : Node) (f : ParameterHead → ParameterHead) : Option (List CType) :=
  n.parameters?.map fun list => list.children.filterMap fun p =>
    match p.kind with
    | .parameter head => some (parameterType (f head))
    | _ => none

def functionSymbol (n : Node) (head : FunctionHead) (position : Position)
    (f : ParameterHead → ParameterHead) : Symbol :=
  .function {
    name := head.name, node := n.id, position, form := head.form,
    type := .declared head.spec.base head.spec.const head.layers true,
    params := parameterTypes n f }

/-- Enters a function; whether it was refused. -/
def enterFunction (n : Node) (above : List Node) (head : FunctionHead) : PassM Bool := do
  let position ← lift (n.position none)
  let symbol := functionSymbol n head position
  let (_, refused) ← declare n above (symbol id) (symbol (settled head.form))
  return refused

def enterObject (n : Node) (above : List Node) (name : Option String) (type : CType) (byDeclarator : Bool) :
    PassM (Option Nat × Bool) := do
  let position ← lift (n.position none)
  let symbol := Symbol.object { name, node := n.id, position, byDeclarator, type }
  declare n above symbol symbol

def loopAround? (above : List Node) : Option Node := above.find? (·.kind.isLoop)

/-- What stands in a block has a scope of its own, unless the function or loop around it has opened one. -/
def opensScope (above : List Node) : Bool :=
  match above with
  | parent :: _ => !(parent.kind.isDefinition || parent.kind.isFor)
  | [] => true

/-- A parameter as it is to be entered, or nothing if its children are not visited. -/
def checkParameter (n : Node) (above : List Node) (head : ParameterHead) : PassM Bool := do
  let count := (above.head?.map fun list => list.children.length).getD 0
  let function? := above[1]?
  let name := head.name.getD "None"
  if isVoid head then
    if head.name.isNone then
      if 1 < count then error n above "'void' must be the only parameter"
    else error n above s!"parameter '{name}' has incomplete type"
    return false
  else if head.name.isNone && function?.any (·.kind.isDefinition) then
    error n above "parameter name omitted"
    return false
  else
    if !head.spec.typed then
      warning n s!"type specifier missing in declaration of '{name}', type defaults to 'int'"
    return true

mutual

/-- Visits a node, whose parents are given innermost first. -/
def visit (above : List Node) : Node → PassM Node
  | .mk id kind origin children => do
    let n := Node.mk id kind origin children
    if ← isMarked n then return n
    let inside := n :: above
    match kind with
    | .program =>
      let children ← visitAll inside children
      modify fun s => { s with table := s.table.reset }
      return n.withChildren children
    | .string raw codes =>
      let type ← lift n.exprType
      onTable (SymbolTable.insertString raw codes id type)
      return n
    | .breakStmt =>
      if (loopAround? above).isNone then error n above "'break' statement not in loop statement"
      return n
    | .continueStmt =>
      if (loopAround? above).isNone then error n above "'continue' statement not in loop statement"
      return n
    | .cast spec _ =>
      if !spec.typed then warning n "type specifier missing, defaults to 'int'"
      return n
    | .declarator head =>
      let around := above.head?.map Node.kind
      let spec ← match around.bind Kind.specifiers? with
        | some spec => pure spec
        | none => throw .missing
      let name := head.name.getD "None"
      if !spec.typed then
        warning n s!"type specifier missing in declaration of '{name}', type defaults to 'int'"
      let type ← lift (Node.declaratorType around head)
      let (symbol, refused) ← enterObject n above head.name type true
      if refused then return n
      let n := n.withKind (.declarator { head with symbol })
      let children ← visitAll inside children
      return n.withChildren children
    | .function head =>
      let name := head.name.getD "None"
      if !head.spec.typed then
        if head.form.isDefinition then warning n "type specifier missing, return type defaults to 'int'"
        else
          warning n ("data definition has no type or storage class, type defaults to 'int' in declaration of '"
            ++ name ++ "'")
      if ← enterFunction n above head then return n
      if head.form.isDefinition then onTable (SymbolTable.openScope true head.name)
      let children ← visitAll inside children
      if head.form.isDefinition then onTable SymbolTable.closeScope
      return n.withChildren children
    | .parameter head =>
      if !(← checkParameter n above head) then return n
      if above[1]?.any (·.kind.isDeclaration) then
        let children ← visitAll inside children
        return n.withChildren children
      let head := decay head
      let n := n.withKind (.parameter head)
      let (_, refused) ← enterObject n above head.name (parameterType head) false
      if refused then return n
      let children ← visitAll inside children
      return n.withChildren children
    | .statements =>
      let opens := opensScope above
      if opens then onTable (SymbolTable.openScope false none)
      let children ← visitAll inside children
      if opens then onTable SymbolTable.closeScope
      return n.withChildren children
    | .forLoop .. =>
      onTable (SymbolTable.openScope false none)
      let children ← visitAll inside children
      onTable SymbolTable.closeScope
      return n.withChildren children
    | _ =>
      let children ← visitAll inside children
      return n.withChildren children

def visitAll (above : List Node) : List Node → PassM (List Node)
  | [] => pure []
  | c :: cs => do
    let c ← visit above c
    let cs ← visitAll above cs
    return c :: cs

end

def run (program : Node) : PassM Node := visit [] program

end MiniC.Fill
