import MiniC.Predict.Closure
import MiniC.Predict.Merge

/-!
# Remembered predictions

An `Automaton` remembers, for one decision, which set of places follows which on which symbol. A node
whose places belong to one alternative, or cannot be told apart, ends the prediction. The loop of a
left-recursive rule has a start of its own for each level.
-/

namespace MiniC

structure DecisionNode where
  set : ConfigSet
  accept : Bool := false
  prediction : Int := 0
  /-- The alternatives conflict unless the callers are looked at. -/
  needsContext : Bool := false
  /-- Conditions with the alternatives they allow. -/
  guards : Option (List (Guard × Int)) := none
  /-- The node after each symbol from the end of the input on: -1 if it was not asked for, -2 if there is
  none. Empty before the first. -/
  edges : Array Int := #[]
  deriving Inhabited

namespace DecisionNode

def render (n : DecisionNode) (number : Int) : String :=
  let base := (if n.accept then ":" else "") ++ "s" ++ toString number ++ (if n.needsContext then "^" else "")
  if !n.accept then base
  else
    match n.guards with
    | some pairs =>
      let shown := pairs.map fun (g, alt) => g.renderPair alt
      base ++ "=>[" ++ ", ".intercalate shown ++ "]"
    | none => base ++ "=>" ++ toString n.prediction

end DecisionNode

structure Automaton where
  decision : Int
  state : Nat
  nodes : Array DecisionNode := #[]
  start : Option Nat := none
  /-- The decision is the loop of a left-recursive rule; `starts` are its starts by level. -/
  leveled : Bool := false
  starts : Array (Option Nat) := #[]
  deriving Inhabited

namespace Automaton

def ofNetwork (net : Network) : Array Automaton :=
  net.decisions.mapIdx fun i state => { decision := Int.ofNat i, state }

def isStarted (a : Automaton) : Bool := a.start.isSome || a.leveled

def startFor (a : Automaton) (level : Int) : Option Nat :=
  if level < 0 then none else (a.starts[level.toNat]?).join

def setStartFor (a : Automaton) (level : Int) (node : Nat) : Automaton :=
  if level < 0 then a
  else
    let starts := if level.toNat < a.starts.size then a.starts
      else a.starts ++ Array.replicate (level.toNat + 1 - a.starts.size) none
    { a with starts := starts.setIfInBounds level.toNat (some node) }

def setStart? (a : Automaton) (level : Int) (node : Nat) : Except Fault Automaton :=
  if a.leveled then pure (a.setStartFor level node)
  else throw (.illegalState "Only precedence DFAs may contain a precedence start state.")

/-- Turns the starts by level on or off, and forgets everything if that is a change. -/
def setLeveled (a : Automaton) (on : Bool) : Automaton :=
  if a.leveled = on then a else { a with nodes := #[], start := none, starts := #[], leveled := on }

def node (a : Automaton) (n : Nat) : DecisionNode := (a.nodes[n]?).getD default

def addNode (a : Automaton) (n : DecisionNode) : Automaton × Nat :=
  match a.nodes.findIdx? (fun m => m.set.same n.set) with
  | some i => (a, i)
  | none =>
    ({ a with nodes := a.nodes.push { n with set := n.set.freeze } }, a.nodes.size)

def addEdge (net : Network) (a : Automaton) (n : Nat) (symbol target : Int) : Automaton :=
  if symbol < -1 ∨ symbol > net.maxTokenType then a
  else
    { a with
      nodes := a.nodes.modify n fun node =>
        let edges := if node.edges.isEmpty then Array.replicate (net.maxTokenType + 2).toNat (-1)
          else node.edges
        { node with edges := edges.setIfInBounds (symbol + 1).toNat target } }

/-- Remembers that a set of places follows a node, if one is given, on a symbol. A set that is new becomes a node,
for which its stacks have to be such that they can be stored. The answer is the number of its node, whether that is new
and how many nodes there are. -/
def addStep (net : Network) (a : Automaton) (origin : Option Int) (symbol : Int) (set : ConfigSet) :
    Except Fault (Automaton × Nat × Bool × Nat) := do
  let isNew := !a.nodes.any (·.set.same set)
  if isNew ∧ !set.readonly then
    let _ ← set.configs.foldlM (fun (m : Stack.Memo) c => m.intern c.stack) []
  let (b, n) := a.addNode { set }
  let b := match origin.bind (placeAt a.nodes.size) with
    | some k => b.addEdge net k symbol (Int.ofNat n)
    | none => b
  return (b, n, isNew, b.nodes.size)

/-- The remembered step: -1 if it was not asked for, -2 if there is none. -/
def edgeOf (a : Automaton) (n : Nat) (symbol : Int) : Int :=
  if symbol < -1 then -1
  else
    match a.nodes[n]? with
    | some node => node.edges.getD (symbol + 1).toNat (-1)
    | none => -1

def symbolName (vocabulary : Option Vocabulary) (place : Nat) : String :=
  if place = 0 then "EOF"
  else
    match vocabulary with
    | none => toString (Int.ofNat place - 1)
    | some v =>
      if place ≤ v.literal.size then (v.literal[place - 1]?).getD ""
      else if place ≤ v.symbolic.size then (v.symbolic[place - 1]?).getD ""
      else toString (Int.ofNat place - 1)

/-- The listing of all remembered steps. An automaton that was started and has no steps has none. -/
def listing (a : Automaton) (vocabulary : Option Vocabulary) : Except Fault String :=
  if !a.isStarted then pure ""
  else
    let lines := a.nodes.toList.zipIdx.flatMap fun (node, n) =>
      node.edges.toList.zipIdx.filterMap fun (target, place) =>
        if target < 0 then none
        else
          some (node.render (Int.ofNat n) ++ "-" ++ symbolName vocabulary place ++ "->" ++
            (a.node target.toNat).render target ++ "\n")
    if lines.isEmpty then throw .unsuitable else pure (String.join lines)

/-- The listings of all automata with nodes, each below its number, up to the first that has none. -/
def dump (v : Vocabulary) (automata : List Automaton) : String × Option Fault :=
  let rec go (gap : String) : List Automaton → String × Option Fault
    | [] => ("", none)
    | a :: rest =>
      let head := s!"{gap}Decision {a.decision}:\n"
      match a.listing (some v) with
      | .error e => (head, some e)
      | .ok text =>
        let (tail, e) := go "\n" rest
        (head ++ text ++ tail, e)
  go "" (automata.filter (!·.nodes.isEmpty))

def guardNode (net : Network) (state : Nat) (n : DecisionNode) : Except Fault DecisionNode := do
  match n.set.conflictingOrOnly with
  | none => throw .unsuitable
  | some alts =>
    match ← Closure.guardsOf alts n.set (net.state state).edges.size with
    | some guards =>
      return { n with
        guards := Closure.predictionsOf (some alts) ((guards.toList.drop 1).map (·.getD .always))
        prediction := 0 }
    | none => return { n with prediction := ← AltSets.least alts }

/-- The node of places reached by a step: it ends the prediction if only one alternative is left or if the
alternatives conflict. -/
def nodeOf (net : Network) (mode : PredictionMode) (state : Nat) (reach : ConfigSet) :
    Except Fault DecisionNode := do
  let only := reach.onlyAlt
  let n ← if only ≠ 0 then
      pure { set := { reach with uniqueAlt := only }, accept := true, prediction := only : DecisionNode }
    else if ← reach.endsPrediction net mode then do
      let alts := AltSets.alts (← reach.altSubsets)
      pure { set := { reach with conflictingAlts := some alts }, accept := true, needsContext := true,
             prediction := ← AltSets.least alts : DecisionNode }
    else pure { set := reach : DecisionNode }
  if n.accept ∧ n.set.conditional then
    let n ← guardNode net state n
    return if n.guards.isSome then { n with prediction := 0 } else n
  return n

end Automaton

end MiniC
