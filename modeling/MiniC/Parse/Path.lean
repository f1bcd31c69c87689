import MiniC.Parse.Tree

/-!
# Steps of a path through a parse tree

A path expression leads from a node to others by steps: to the children or to all trees below, of any sort or to the
tokens of a type. A step may be turned around, so that it leads to what it would leave out. Steps to the nodes of a
rule cannot be taken.
-/

namespace MiniC

inductive PathTarget where
  | rule (name : String)
  | token (name : String) (type : Int)
  | wildcard
  deriving DecidableEq, Repr, Inhabited

/-- A step of a path. `anywhere` steps lead to all depths. -/
structure PathStep where
  target : PathTarget
  anywhere : Bool
  inverted : Bool
  deriving DecidableEq, Repr, Inhabited

namespace PathStep

def render (s : PathStep) : String :=
  let (kind, name) := match s.target with
    | .rule n => ("Rule", n)
    | .token n _ => ("Token", n)
    | .wildcard => ("Wildcard", "*")
  "XPath" ++ kind ++ (if s.anywhere then "Anywhere" else "") ++ "Element[" ++ (if s.inverted then "!" else "") ++
    name ++ "]"

def ofKind (kind name : String) (type : Int) (inverted : Bool) : PathStep where
  target := if kind.startsWith "Rule" then .rule name else if kind.startsWith "Token" then .token name type else .wildcard
  anywhere := kind.endsWith "Anywhere"
  inverted

/-- The trees that a step leads to. Tokens are found at all depths whether the step is turned around or not. -/
def walk (s : PathStep) (t : ParseTree) : Except Fault (List ParseTree) :=
  match s.target with
  | .rule _ => throw .missing
  | .token _ type =>
    if s.anywhere then pure (t.descendants.filter fun c => c.token?.any (·.type = type))
    else pure (t.children.filter fun c => c.token?.any fun k => (k.type == type) != s.inverted)
  | .wildcard =>
    if s.inverted then pure [] else pure (if s.anywhere then t.descendants else t.children)

/-- The step that a word of a path expression stands for; there is none at the end, and no step can be made of a
word by itself. -/
def ofWord (type : Int) : Except Fault PathStep :=
  if type = Token.eof then throw (.illegal "Missing path element at end of path") else throw .missing

/-- The texts that steps of any kind lead to from a tree: a path has to have no steps to be walked. -/
def walkAll (steps : Nat) (t : ParseTree) : Except Fault (List String) :=
  if steps = 0 then pure [t.text] else throw .unsuitable

end PathStep

end MiniC
