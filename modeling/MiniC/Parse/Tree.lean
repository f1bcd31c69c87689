import MiniC.Lexeme.Token

/-!
# Parse trees

A parse tree has a node for each rule that was entered and a leaf for each token. A leaf is bad if the
token was skipped or made up to recover from an error. Nodes remember the state of the parser that called
the rule.
-/

namespace MiniC

/-- What a node says about its rule. -/
structure RuleInfo where
  /-- The rule, or -1. -/
  rule : Int
  label : Option String := none
  /-- The state that called the rule, or -1. -/
  caller : Int := -1
  start : Option Token := none
  stop : Option Token := none
  deriving Inhabited, Repr, DecidableEq

inductive ParseTree where
  | leaf (token : Token) (bad : Bool)
  | node (info : RuleInfo) (children : List ParseTree)
  deriving Inhabited, Repr

namespace ParseTree

def children : ParseTree → List ParseTree
  | leaf .. => []
  | node _ cs => cs

def info? : ParseTree → Option RuleInfo
  | leaf .. => none
  | node i _ => some i

def token? : ParseTree → Option Token
  | leaf t _ => some t
  | node .. => none

def isLeaf : ParseTree → Bool
  | leaf .. => true
  | node .. => false

mutual
def text : ParseTree → String
  | leaf t _ => t.text.getD ""
  | node _ cs => textAll cs

def textAll : List ParseTree → String
  | [] => ""
  | c :: cs => c.text ++ textAll cs
end

def leafName (t : Token) : String := if t.type = Token.eof then "<EOF>" else t.text.getD ""

mutual
def render (ruleNames : Array String) : ParseTree → String
  | leaf t bad => escapeBreaks (if bad then leafName t else t.text.getD "")
  | node i cs =>
    let name := escapeBreaks ((entryAt? ruleNames i.rule).getD "")
    match cs with
    | [] => name
    | cs => "(" ++ name ++ renderAll ruleNames cs ++ ")"

def renderAll (ruleNames : Array String) : List ParseTree → String
  | [] => ""
  | c :: cs => " " ++ render ruleNames c ++ renderAll ruleNames cs
end

mutual
/-- The tree itself and all trees below it, from top to bottom and from left to right. -/
def descendants : ParseTree → List ParseTree
  | leaf t bad => [leaf t bad]
  | node i cs => node i cs :: descendantsAll cs

def descendantsAll : List ParseTree → List ParseTree
  | [] => []
  | c :: cs => descendants c ++ descendantsAll cs
end

mutual
/-- All nodes and leaves in the same order, each with the rules above it, innermost first. -/
def withAncestors (above : List RuleInfo) : ParseTree → List (ParseTree × List RuleInfo)
  | leaf t bad => [(leaf t bad, above)]
  | node i cs => (node i cs, above) :: withAncestorsAll (i :: above) cs

def withAncestorsAll (above : List RuleInfo) : List ParseTree → List (ParseTree × List RuleInfo)
  | [] => []
  | c :: cs => withAncestors above c ++ withAncestorsAll above cs
end

def interval : ParseTree → Int × Int
  | leaf t _ => (t.index, t.index)
  | node i _ =>
    match i.start, i.stop with
    | some a, some b => (a.index, b.index)
    | _, _ => (-1, -2)

def tokensOf (type : Int) (t : ParseTree) : List ParseTree :=
  t.children.filter fun c => c.token?.any (·.type = type)

def rulesOf (rule : Int) (t : ParseTree) : List ParseTree :=
  t.children.filter fun c => c.info?.any (·.rule = rule)

end ParseTree

end MiniC
