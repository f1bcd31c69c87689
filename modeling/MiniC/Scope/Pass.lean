import MiniC.Diagnostic
import MiniC.Scope.Table
import MiniC.Syntax.TypeOf

/-!
# Passes over a syntax tree

A pass visits the nodes of a tree from left to right and gives back the tree with what it found out. An error
marks the node it is about, and the statement or declaration around it; later passes do not enter marked
nodes. A warning takes the mark of its own node away.
-/

namespace MiniC

structure PassState where
  table : SymbolTable := {}
  marks : List Nat := []
  /-- The operands of calls and conditionals that messages about them point at. -/
  operands : List (Nat × Nat) := []
  found : Array Diagnostic := #[]
  nextId : Nat := 0
  deriving Inhabited

/-- Passes; what was done before a fault stays done. -/
abbrev PassM := ExceptT Fault (StateM PassState)

namespace Pass

def lift {α : Type} (e : Except Fault α) : PassM α := ExceptT.mk (pure e)

def onTable {α : Type} (op : TableM α) : PassM α := do
  let s ← get
  set { s with table := default }
  let (result, table) := op.run.run s.table
  set { s with table }
  lift result

def isMarked (n : Node) : PassM Bool := do
  let s ← get
  return s.marks.contains n.id

def mark (id : Nat) : PassM Unit := modify fun s => { s with marks := id :: s.marks }

def unmark (id : Nat) : PassM Unit := modify fun s => { s with marks := s.marks.filter (· != id) }

def anyMarked (ns : List Node) : PassM Bool := do
  let s ← get
  return ns.any fun n => s.marks.contains n.id

/-- The outermost expression that an expression is a part of, and the nodes above it. -/
def baseExpression (n : Node) : List Node → Node × List Node
  | [] => (n, [])
  | parent :: above => if parent.kind.isExpression then baseExpression parent above else (n, parent :: above)

/-- The nodes that are marked for an error in a node: the node, and for an expression also the whole
expression it is a part of, the statement that holds it, or the declarator that it initialises. -/
def blamed (n : Node) (above : List Node) : List Nat :=
  if n.kind.isExpression then
    let (base, above) := baseExpression n above
    let holder := match above with
      | parent :: rest =>
        if parent.kind.isInitializerList then (rest.head?.map Node.id).toList
        else if parent.kind.isStatement then [parent.id]
        else []
      | [] => []
    n.id :: base.id :: holder
  else [n.id]

def report (d : Diagnostic) : PassM Unit := modify fun s => { s with found := s.found.push d }

/-- From now on messages about a call or a conditional point at one of its operands. -/
def pointAt (n : Node) (operand : Nat) : PassM Unit :=
  modify fun s => { s with operands := (n.id, operand) :: s.operands }

def placeOf (n : Node) : PassM Position := do
  let s ← get
  lift (n.position (s.operands.lookup n.id))

/-- An error at a node, whose parents are given innermost first. -/
def error (n : Node) (above : List Node) (message : String) : PassM Unit := do
  let (line, column) ← placeOf n
  for id in blamed n above do mark id
  report (.error message (some line) (some column))

def warning (n : Node) (message : String) : PassM Unit := do
  let (line, column) ← placeOf n
  unmark n.id
  report (.warning message (some line) (some column))

/-- Puts a symbol into the table, if the rules allow it. The first symbol is judged and the second one is
kept. Gives the number of the symbol, and whether it was refused. -/
def declare (n : Node) (above : List Node) (judged kept : Symbol) : PassM (Option Nat × Bool) := do
  let verdict ← onTable (SymbolTable.verdict judged)
  match verdict with
  | .accept =>
    let v ← match kept with
      | .object o => onTable (SymbolTable.insertObject o)
      | .function f => onTable (SymbolTable.insertFunction f)
    return (some v, false)
  | .ignore => return (none, false)
  | .undecided => throw .unsuitable
  | .refuse message =>
    error n above message
    return (none, true)
  | .blame message node (line, column) =>
    mark node
    report (.error message (some line) (some column))
    return (none, true)

end Pass

end MiniC
