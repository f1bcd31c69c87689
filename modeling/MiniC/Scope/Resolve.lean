import MiniC.Scope.Fill

/-!
# Resolving names

The second pass replays the scopes and gives each name the symbol it stands for and each call the function
that is called. A name stands for a variable only from its declaration on.
-/

namespace MiniC.Resolve

open Pass

def libraryFunction (name : String) : FunctionSymbol where
  name := some name
  node := 0
  position := (0, 0)
  form := .definition
  type := .declared .void false [] true
  params := none
  isLibrary := true

def asObject (f : FunctionSymbol) : Symbol :=
  .object { name := f.name, node := f.node, position := f.position, byDeclarator := false, type := f.type }

/-- The functions for input and output are entered, in the place of others of the same name. -/
def includeLibrary : PassM Unit := do
  let printf := libraryFunction "printf"
  let scanf := libraryFunction "scanf"
  let first ← onTable (SymbolTable.verdict (.function printf))
  let second ← onTable (SymbolTable.verdict (asObject scanf))
  if inserts first then let _ ← onTable (SymbolTable.insertFunction printf)
  if inserts second then let _ ← onTable (SymbolTable.insertFunction scanf)
where
  inserts : SymbolTable.Verdict → Bool
    | .ignore => false
    | .undecided => false
    | _ => true

def entered (name : Option String) : PassM Nat := do
  let s ← get
  match s.table.lookup name 0 with
  | some v => pure v
  | none => throw (.illegal ("Expected to find " ++ name.getD "None" ++ " in symbol table"))

def setSeen (v : Nat) (stage : Nat) : PassM Unit :=
  modify fun s => { s with table := s.table.modifySymbol v (Symbol.setSeen stage) }

def calleeOf (f : FunctionSymbol) : Callee := ⟨f.name.getD "None", f.type, f.params, f.isLibrary⟩

def resolveName (n : Node) (above : List Node) (name : String) : PassM Node := do
  let s ← get
  match s.table.lookup (some name) 1 with
  | none =>
    error n above s!"variable '{name}' undeclared"
    return n
  | some v =>
    let symbol := s.table.symbol v
    let stage ← lift symbol.seen
    if stage = 1 then warning n "variable used in its own initialization"
    return n.withKind (.name name (some symbol.type) (some v))

def resolveCall (n : Node) (above : List Node) (name : Option String) : PassM (Option Callee) := do
  let s ← get
  let shown := name.getD "None"
  match s.table.lookup name 1 with
  | none =>
    error n above s!"function '{shown}' undeclared"
    return none
  | some v =>
    match s.table.symbol v with
    | .function f =>
      if f.form.isDefinition then return some (calleeOf f)
      error n above s!"function: undefined reference to '{shown}'"
      return none
    | .object _ =>
      error n above s!"function: undefined reference to '{shown}'"
      return none

def isMain (head : FunctionHead) : Bool := head.form.isDefinition && head.name == some "main"

mutual

/-- Visits a node, whose parents are given innermost first. -/
def visit (above : List Node) : Node → PassM Node
  | .mk id kind origin children => do
    let n := Node.mk id kind origin children
    match kind with
    | .includeFile std name =>
      if std && name == "stdio.h" then includeLibrary
      return n
    | _ =>
    if ← isMarked n then return n
    let inside := n :: above
    match kind with
    | .parameter head =>
      if !above[1]?.any (·.kind.isDeclaration) && head.name.isSome then
        let v ← entered head.name
        setSeen v 2
      return n
    | .declarator head =>
      let v ← entered head.name
      setSeen v 1
      let children ← visitAll inside children
      setSeen v 2
      return n.withChildren children
    | .name text _ _ => resolveName n above text
    | .function head =>
      if head.form.isDefinition then
        onTable (SymbolTable.openScope true head.name)
        let children ← visitAll inside children
        onTable SymbolTable.closeScope
        return n.withChildren children
      else
        let children ← visitAll inside children
        return n.withChildren children
    | .call name _ pieces =>
      match ← resolveCall n above name with
      | none => return n
      | some callee =>
        let children ← visitAll inside children
        return (n.withKind (.call name (some callee) pieces)).withChildren children
    | .statements =>
      let opens := Fill.opensScope above
      if opens then onTable (SymbolTable.openScope false none)
      let children ← visitAll inside children
      if opens then onTable SymbolTable.closeScope
      return n.withChildren children
    | .forLoop .. =>
      onTable (SymbolTable.openScope false none)
      let children ← visitAll inside children
      onTable SymbolTable.closeScope
      return n.withChildren children
    | _ =>
      let children ← visitAll inside children
      return n.withChildren children

def visitAll (above : List Node) : List Node → PassM (List Node)
  | [] => pure []
  | c :: cs => do
    let c ← visit above c
    let cs ← visitAll above cs
    return c :: cs

end

/-- The definitions of a program that are visited in this pass include the main function. -/
def definesMain (marks : List Nat) (program : Node) : Bool :=
  program.children.any fun f =>
    match f.kind with
    | .function head => isMain head && !marks.contains f.id
    | _ => false

def run (program : Node) : PassM Node := do
  modify fun s => { s with table := s.table.startReplay }
  let before ← get
  let defined := definesMain before.marks program
  let program ← visit [] program
  modify fun s => { s with table := s.table.reset }
  if !defined then error program [] "no main function defined"
  return program

end MiniC.Resolve
