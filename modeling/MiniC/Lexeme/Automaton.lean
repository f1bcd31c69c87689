import MiniC.Predict.Stack
import MiniC.Lexeme.CharStream

/-!
# Reading tokens with a network

A lexer follows all rules of its network at once. A `LexConfig` is one place where it may stand, a
`LexSet` all of them in order of preference, and a `LexAutomaton` remembers which set follows which on
which character, so that each step is worked out once. `longest` reads as far as any rule goes and
remembers the last place where a rule was complete.
-/

namespace MiniC

/-- One place in the network where a lexer may stand. `alt` is the rule that was tried, counted from 1. -/
structure LexConfig where
  state : Nat
  alt : Nat
  stack : Stack
  actions : Option (List LexerAction)
  /-- The way here went through a decision that prefers to end. -/
  pastNonGreedy : Bool
  deriving DecidableEq, Repr, Inhabited

namespace LexerAction

def isPositional : LexerAction → Bool
  | custom .. | indexed .. => true
  | _ => false

/-- The action, tied to its distance from the start of the token if it looks at its place. -/
def fixOffset (offset : Int) : LexerAction → LexerAction
  | custom r a => indexed offset (custom r a)
  | other => other

/-- The action of a named kind with its numbers. One that is tied to an offset is given as the number of an action
made before. -/
def ofKind (kind : String) (a b : Int) (made : Array LexerAction) : Except Fault LexerAction :=
  match kind with
  | "Skip" => pure skip
  | "More" => pure more
  | "PopMode" => pure popMode
  | "Type" => pure (type a)
  | "PushMode" => pure (pushMode a)
  | "Mode" => pure (mode a)
  | "Channel" => pure (channel a)
  | "Custom" => pure (custom a b)
  | "IndexedCustom" => return indexed a (← entryAt made b)
  | _ => throw .missing

end LexerAction

namespace LexConfig

def moveTo (net : Network) (c : LexConfig) (target : Nat) : LexConfig :=
  let s := net.state target
  { c with
    state := target
    pastNonGreedy := c.pastNonGreedy || (s.kind.isDecision && s.nonGreedy) }

end LexConfig

/-- The places where a lexer may stand, the preferred ones first. `conditional` tells that a condition
was tested on the way. -/
structure LexSet where
  configs : Array LexConfig := #[]
  conditional : Bool := false
  deriving DecidableEq, Repr, Inhabited

namespace LexSet

def add (s : LexSet) (c : LexConfig) : LexSet :=
  if s.configs.contains c then s else { s with configs := s.configs.push c }

/-- Where an edge leads without reading a character. -/
def freeTarget (net : Network) (eofIsFree : Bool) (c : LexConfig) (edge : Edge) :
    Except Fault (Option LexConfig) :=
  match edge with
  | .rule target _ _ follow =>
    pure (some { c.moveTo net target with stack := .push c.stack (Int.ofNat follow) })
  | .precedence .. => throw (.unsupported "Precedence predicates are not supported in lexers.")
  | .predicate target .. | .epsilon target _ => pure (some (c.moveTo net target))
  | .action target _ index _ =>
    if c.stack = .unknown ∨ c.stack.hasEmptyPath then do
      let action ← entryAt (net.actions.getD #[]) index
      pure (some { c.moveTo net target with actions := some (c.actions.getD [] ++ [action]) })
    else pure (some (c.moveTo net target))
  | .atom target _ | .range target _ _ | .set target _ =>
    pure (if eofIsFree ∧ edge.reads (-1) 0 0xFFFF then some (c.moveTo net target) else none)
  | .notSet .. | .wildcard _ => pure none

/-- Adds all places that can be reached from one without reading. `reached` tells whether a rule of the
same alternative was completed before, which then hides the places behind a decision that prefers to
end. -/
def close (net : Network) (eofIsFree : Bool) :
    Nat → LexConfig → Bool → LexSet → Except Fault (LexSet × Bool)
  | 0, _, _, _ => throw .exhausted
  | fuel + 1, c, reached, set => do
    let s := net.state c.state
    if s.kind = .ruleStop then
      if c.stack = .unknown ∨ c.stack.isEmpty then return (set.add c, true)
      let (set, reached) := if c.stack.hasEmptyPath then (set.add { c with stack := .empty }, true)
        else (set, reached)
      c.stack.branches.foldlM (fun (set, reached) (below, back) => do
        if back = Stack.emptyReturn then return (set, reached)
        close net eofIsFree fuel { c.moveTo net back.toNat with stack := below } reached set) (set, reached)
    else
      let set := if !s.freeOnly && (!reached || !c.pastNonGreedy) then set.add c else set
      s.edges.foldlM (fun (set, reached) edge => do
        let set := match edge with
          | .predicate .. => { set with conditional := true }
          | _ => set
        match ← freeTarget net eofIsFree c edge with
        | some next => close net eofIsFree fuel next reached set
        | none => return (set, reached)) (set, reached)

def closeBudget (net : Network) : Nat := (net.states.size + 1) * (net.ruleStart.size + 2)

def start (net : Network) (state : Nat) : Except Fault LexSet := do
  let edges := (net.state state).edges
  let (set, _) ← edges.foldlM (fun (set, alt) edge => do
    let c : LexConfig := ⟨edge.target, alt, .empty, none, false⟩
    let (set, _) ← close net false (closeBudget net) c false set
    return (set, alt + 1)) (({} : LexSet), 1)
  return set

/-- Where a lexer stands after reading `symbol`, at a distance from the start of the token. -/
def step (net : Network) (set : LexSet) (symbol offset : Int) : Except Fault LexSet := do
  let (reach, _) ← set.configs.foldlM (fun (reach, skipped) c => do
    let reached := c.alt == skipped
    if reached && c.pastNonGreedy then return (reach, skipped)
    (net.state c.state).edges.foldlM (fun (reach, skipped) edge => do
      if !edge.reads symbol 0 0xFFFE then return (reach, skipped)
      let next := { c.moveTo net edge.target with
        actions := c.actions.map fun as => as.map (LexerAction.fixOffset offset) }
      let (reach, hit) ← close net (symbol == -1) (closeBudget net) next reached reach
      return (reach, if hit then c.alt else skipped)) (reach, skipped)) (({} : LexSet), 0)
  return reach

end LexSet

/-- A set of places with what is known about the steps from it. -/
structure LexNode where
  set : LexSet
  /-- The token type and the actions of the first rule that is complete here. -/
  accept : Option (Int × Option (List LexerAction))
  /-- The node that follows on each character code below 128: -1 if it was not asked for, -2 if there is
  none. -/
  edges : Array Int := #[]
  deriving Inhabited, Repr

/-- The nodes found so far; a node's number is its place. -/
structure LexAutomaton where
  nodes : Array LexNode := #[]
  start : Option Nat := none
  deriving Inhabited, Repr

structure Cursor where
  index : Int
  line : Int
  column : Int
  deriving Inhabited, Repr, DecidableEq

namespace Cursor

def pass (p : Cursor) (symbol : Int) : Cursor :=
  if symbol = 10 then ⟨p.index + 1, p.line + 1, 0⟩ else ⟨p.index + 1, p.line, p.column + 1⟩

end Cursor

namespace LexAutomaton

/-- The greatest character code whose steps are remembered. -/
def lastCode : Int := 127

def addNode (net : Network) (a : LexAutomaton) (set : LexSet) : LexAutomaton × Nat :=
  match a.nodes.findIdx? (fun n => n.set.configs == set.configs) with
  | some n => (a, n)
  | none =>
    let accept := (set.configs.find? fun c => net.isRuleStop c.state).map fun c =>
      let rule := (net.state c.state).rule
      ((entryAt? (net.ruleTokenType.getD #[]) rule).getD 0, c.actions)
    ({ a with nodes := a.nodes.push { set := { set with conditional := false }, accept } }, a.nodes.size)

def addEdge (a : LexAutomaton) (n : Nat) (symbol target : Int) : LexAutomaton :=
  if symbol < 0 ∨ symbol > lastCode then a
  else
    { a with
      nodes := a.nodes.modify n fun node =>
        let edges := if node.edges.isEmpty then Array.replicate 128 (-1) else node.edges
        { node with edges := edges.setIfInBounds symbol.toNat target } }

/-- The remembered step, -1 if there is none. -/
def edgeOf (a : LexAutomaton) (n : Nat) (symbol : Int) : Int :=
  match symbol with
  | .ofNat k =>
    match a.nodes[n]? with
    | some node => node.edges.getD k (-1)
    | none => -1
  | .negSucc _ => -1

def next (net : Network) (a : LexAutomaton) (n : Nat) (symbol offset : Int) :
    Except Fault (LexAutomaton × Option Nat) := do
  let known := a.edgeOf n symbol
  if known ≥ 0 then return (a, some known.toNat)
  if known = -2 then return (a, none)
  let reach ← ((a.nodes[n]?).getD default).set.step net symbol offset
  if reach.configs.isEmpty then
    return (if reach.conditional then a else a.addEdge n symbol (-2), none)
  let (a, target) := a.addNode net reach
  return (if reach.conditional then a else a.addEdge n symbol (Int.ofNat target), some target)

/-- The last place where a rule was complete, with what it makes. -/
structure Accepted where
  at_ : Cursor
  type : Int
  actions : Option (List LexerAction)
  deriving Inhabited, Repr

def acceptedAt (a : LexAutomaton) (n : Nat) (p : Cursor) (before : Option Accepted) : Option Accepted :=
  match ((a.nodes[n]?).getD default).accept with
  | some (type, actions) => some ⟨p, type, actions⟩
  | none => before

/-- Reads from `p` as far as any rule goes. The result is where reading stopped, the symbol there, and the
last place where a rule was complete. -/
def longest (net : Network) (input : CharStream) (origin : Int) :
    Nat → LexAutomaton → Nat → Cursor → Option Accepted →
      Except Fault (LexAutomaton × Cursor × Int × Option Accepted)
  | 0, _, _, _, _ => throw .exhausted
  | fuel + 1, a, n, p, best => do
    let symbol := input.codeAt p.index
    let (a, target) ← a.next net n symbol (p.index - origin)
    match target with
    | none => return (a, p, symbol, best)
    | some m =>
      let p := if symbol = -1 then p else p.pass symbol
      let complete := ((a.nodes[m]?).getD default).accept.isSome
      let best := a.acceptedAt m p best
      if complete ∧ symbol = -1 then return (a, p, symbol, best)
      longest net input origin fuel a m p best

def nodeName (a : LexAutomaton) (n : Nat) : String :=
  match (a.nodes[n]?).bind (·.accept) with
  | some (type, _) => s!":s{n}=>{type}"
  | none => s!"s{n}"

/-- The listing of all remembered steps; an automaton that was started and has no steps has none. -/
def listing (a : LexAutomaton) : Except Fault String :=
  if a.start.isNone then pure ""
  else
    let lines := (a.nodes.toList.zipIdx).flatMap fun (node, n) =>
      (node.edges.toList.zipIdx).filterMap fun (target, code) =>
        if target < 0 then none
        else some s!"{a.nodeName n}-'{Char.ofNat code}'->{a.nodeName target.toNat}\n"
    if lines.isEmpty then throw .unsuitable else pure (String.join lines)

end LexAutomaton

end MiniC
