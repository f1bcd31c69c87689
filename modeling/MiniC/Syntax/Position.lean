import MiniC.Syntax.Node

/-!
# Positions of nodes

A message about a node names the line and column of a token of its parse tree: the first one, unless the
node has a token that says more, such as the sign of a comparison. A node without a parse tree has the
position 0:0.
-/

namespace MiniC

namespace ParseTree

mutual

def firstToken : ParseTree → Option Token
  | leaf t _ => some t
  | node _ cs => firstTokenOf cs

def firstTokenOf : List ParseTree → Option Token
  | [] => none
  | c :: cs => (firstToken c).or (firstTokenOf cs)

end

end ParseTree

abbrev Position := Int × Int

namespace Node

def tokenPosition : Option Token → Position
  | some t => (t.line.getD 0, t.column)
  | none => (0, 0)

def tree (n : Node) : Except Fault ParseTree :=
  match n.origin with
  | some t => pure t
  | none => throw .missing

def nthTree (t : ParseTree) (i : Nat) : Except Fault ParseTree :=
  match t.children[i]? with
  | some c => pure c
  | none => throw .outOfRange

/-- The position of a node. For a call or a conditional the operand that is to be blamed may be given; a
conditional has no position without it. -/
def position (n : Node) (operand : Option Nat) : Except Fault Position := do
  match n.kind, operand with
  | .variableDeclaration _, _ => return (0, 0)
  | .call .., some i =>
    let arguments ← n.tree >>= (nthTree · 2)
    let argument ← nthTree arguments (2 * i)
    return tokenPosition argument.firstToken
  | .conditional, _ =>
    let t ← n.tree
    match operand with
    | some i =>
      let part ← nthTree t (2 * i)
      return tokenPosition part.firstToken
    | none => throw .unsuitable
  | .compare _, _ =>
    let sign ← n.tree >>= (nthTree · 1)
    match sign.token? with
    | some t => return tokenPosition (some t)
    | none => throw .missing
  | .dereference, _ =>
    let part ← n.tree >>= (nthTree · 1)
    return tokenPosition part.firstToken
  | _, _ => return tokenPosition (n.origin.bind ParseTree.firstToken)

end Node

end MiniC
