import MiniC.Check.Program
import MiniC.Code.Program
import MiniC.Parse.Engine
import MiniC.Scope.Resolve
import MiniC.Syntax.ArrayLengths
import MiniC.Syntax.Build
import MiniC.Syntax.Render

/-!
# Compilation

A source is parsed, turned into a syntax tree, completed, checked for scopes and for types, and turned into
code if there were no errors. `compile` says how far it came and keeps what each stage gave.
-/

namespace MiniC

inductive Stage where
  | parse
  | syntaxErrors
  | tree
  | lengths
  | scope
  | types
  | listing
  | code
  | done
  deriving DecidableEq, Repr, Inhabited

def Stage.name : Stage → String
  | parse => "parse"
  | syntaxErrors => "syntax"
  | tree => "ast"
  | lengths => "decorate"
  | scope => "scope"
  | types => "type"
  | listing => "print"
  | code => "code"
  | done => "done"

structure Compilation where
  stage : Stage
  fault : Option Fault := none
  /-- The tree as it was built, and as it was after the checks. -/
  tree : Option Node := none
  treeText : Option String := none
  checkedText : Option String := none
  scopes : Option String := none
  symbols : Option String := none
  code : Option (List Line) := none
  diagnostics : List (Stage × Diagnostic) := []
  /-- What the symbol table had to say in the checks, and when code was made. -/
  notices : List String := []
  codeNotices : List String := []
  messages : Array String := #[]
  deriving Inhabited

namespace Compilation

def found (c : Compilation) : List Diagnostic := c.diagnostics.map (·.2)

end Compilation

/-- The number of the next node to be made for a tree: one more than the largest. -/
def Node.nextId : Node → Nat
  | .mk id _ _ children => max (id + 1) (nextIdOf children)
where
  nextIdOf : List Node → Nat
    | [] => 0
    | c :: cs => max c.nextId (nextIdOf cs)

/-- The refusal of a source that is not plain text: its first byte that is no character of its own. -/
def nonAscii? (source : String) : Option Fault :=
  let bytes := source.toUTF8
  (bytes.toList.findIdx? fun b => 128 ≤ b.toNat).map fun i =>
    let byte := Quoted.hex 2 (bytes.toList[i]?.getD 0).toNat
    .undecodable s!"'ascii' codec can't decode byte 0x{byte} in position {i}: ordinal not in range(128)"

def parseProgram (source : String) : Except Fault ParseTree × Array String × Nat :=
  let g := Grammar.c
  let stream := TokenStream.ofScanner (Scanner.ofString g.lexer source) (some 0)
  let rule := (g.ruleIndex? "program").getD 0
  let (result, p) := ((Parser.run rule).run).run (Parser.ofStream g stream)
  let tree := match result with
    | .ok tree => .ok tree
    | .error h => .error h.toFault
  (tree, p.stream.log, p.errors)

def Compilation.runPass (c : Compilation) (stage : Stage) (pass : PassM Node) (s : PassState) :
    Except Compilation (Node × PassState × Compilation) :=
  let before := s.found.size
  let (result, s) := pass.run.run s
  let new := (s.found.toList.drop before).map fun d => (stage, d)
  let c := { c with diagnostics := c.diagnostics ++ new, notices := s.table.notices.toList }
  match result with
  | .ok n => .ok (n, s, c)
  | .error f => .error { c with stage, fault := some f }

def Compilation.step {α : Type} (c : Compilation) (stage : Stage) (result : Except Fault α) :
    Except Compilation α :=
  match result with
  | .ok a => .ok a
  | .error f => .error { c with stage, fault := some f }

/-- The stages after the syntax tree. A compilation that stops early is the error. -/
def compileNode (n : Node) (c : Compilation) : Except Compilation Compilation := do
  let text ← c.step .tree n.listing
  let c := { c with tree := some n, treeText := some text }
  let n ← c.step .lengths (n.withLengths none)
  let (n, s, c) ← c.runPass .scope (do Resolve.run (← Fill.run n)) { nextId := n.nextId }
  let c := { c with scopes := some s.table.listing }
  let (n, s, c) ← c.runPass .types (Check.run n) s
  let text ← c.step .listing n.listing
  let c := { c with checkedText := some text, symbols := some s.table.listing }
  if Diagnostic.errorCount c.found = 0 then
    let (fault, code, table) := generate n s.table
    let c := { c with code := some code, codeNotices := table.notices.toList.drop c.notices.length }
    match fault with
    | some f => return { c with stage := .code, fault := some f }
    | none => return { c with stage := .done }
  else return { c with stage := .done }

def compileTree (tree : ParseTree) (c : Compilation) : Except Compilation Compilation := do
  let n ← c.step .tree (Node.ofParseTree tree)
  compileNode n c

def compile (source : String) : Compilation :=
  match nonAscii? source with
  | some f => { stage := .parse, fault := some f }
  | none =>
    let (tree, messages, errors) := parseProgram source
    match tree with
    | .error f => { stage := .parse, fault := some f, messages }
    | .ok tree =>
      if errors ≠ 0 then { stage := .syntaxErrors, messages }
      else
        match compileTree tree { stage := .done, messages } with
        | .ok c => c
        | .error c => c

end MiniC
