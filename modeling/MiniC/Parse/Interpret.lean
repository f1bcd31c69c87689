import MiniC.Parse.Engine

/-!
# Stepping through a network

Instead of running whole rules, a parser can be asked to take one step from a state: to choose an edge, to read what
the edge stands for and to go where it leads. A free edge cannot be taken this way, and the symbol of an edge that
reads one never fits.
-/

namespace MiniC.Parser

/-- The loops of left-recursive rules, in order. -/
def recursionLoops (net : Network) : List Nat :=
  (List.range net.states.size).filter fun n => (net.state n).precedenceDecision

def matchNothing : ParseM Unit := do
  let t ← recoverInline
  if (← get).build ∧ t.index = -1 then addLeaf t true

def takeEdge (n : Nat) (edge : Edge) : ParseM Unit := do
  match edge with
  | .epsilon .. => fail .unsuitable
  | .atom .. => matchNothing
  | .set .. | .range .. | .notSet .. =>
    if !edge.reads (← lookType 1) 1 0xFFFF then
      let _ ← recoverInline
    let _ ← matchAny
  | .wildcard _ =>
    let _ ← matchAny
  | .rule target _ level _ =>
    let start := (← get).grammar.net.state target
    setState (Int.ofNat n)
    if start.leftRecursive == some true then enterRecursion start.rule.toNat target level
    else enterRule start.rule.toNat target
  | .predicate _ rule index _ =>
    if (← liftExcept ((← get).askCondition rule index)) ≠ some true then throw (.mistake (← refusal ""))
  | .action .. => fail .missing
  | .precedence _ level =>
    if !(← get).allowsLevel level then throw (.mistake (← refusal s!"precpred(_ctx, {level})"))
  setState (Int.ofNat edge.target)

def step (n : Int) : ParseM Unit := do
  let (k, s) ← liftExcept ((← get).grammar.net.stateAt n)
  let choice ← if s.edges.size > 1 then do
      sync
      if !s.kind.isDecision then fail .missing
      predict s.decision.toNat
    else pure 1
  takeEdge k (← liftExcept (entryAt s.edges (choice - 1)))

/-- Takes one step from a state with a new parser on the same tokens. The answer is the state it leads to, the
position among the tokens and the text that was read. -/
def stepAnew (n : Int) : ParseM (Int × Int × String) := do
  let p ← get
  let new := { Parser.ofStream p.grammar p.stream with
    follow := p.follow
    state := n
    frames := [{ info := { rule := -1 } }] }
  let (r, q) := (step n).run.run new
  set { p with stream := q.stream, follow := q.follow }
  match r with
  | .ok () => return (q.state, q.stream.index, ((q.frames.head?).map (·.toTree.text)).getD "")
  | .error e => throw e

/-- Parsing a rule step by step fails at the first free edge, which every rule begins with. -/
def stepThrough (rule : Int) : ParseM Unit := do
  let _ ← liftExcept (entryAt (← get).grammar.net.ruleStart rule)
  let _ ← currentToken
  fail .unsuitable

end MiniC.Parser
