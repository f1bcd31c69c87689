import MiniC.Predict.Stack
import Std.Data.HashMap

/-!
# What may come next

`Network.look` collects the symbols that can be read first from a state, following calls into rules and,
where the stack says where a rule returns to, out of them. `Follow` remembers the sets per state;
`Follow.expected` adds what may follow in the callers.
-/

namespace MiniC

def eofSymbol : Int := -1

/-- The mark in a set of symbols that the end of the rule can be reached. -/
def epsilonSymbol : Int := -2

/-- The mark in a set of symbols that a condition stands in the way. -/
def conditionSymbol : Int := 0

namespace Network

structure LookOptions where
  stopState : Option Nat
  /-- Conditions are taken to hold. -/
  seeThrough : Bool
  addEof : Bool
  /-- A rule that nobody calls is followed by the end of the input. -/
  eofAfterStart : Bool

structure Look where
  symbols : IntervalSet := .empty
  busy : Std.HashMap Nat (List Stack) := {}

namespace Look

def visited (l : Look) (s : Nat) (stack : Stack) : Bool := ((l.busy[s]?).getD []).contains stack

def visit (l : Look) (s : Nat) (stack : Stack) : Look :=
  { l with busy := l.busy.insert s (stack :: (l.busy[s]?).getD []) }

def add (l : Look) (v : Int) : Look := { l with symbols := l.symbols.insertOne v }

end Look

/-- Adds to `l` what can be read from `s`. `called` holds the rules that are open, which are not entered
again. -/
def lookFrom (net : Network) (o : LookOptions) : Nat → Nat → Stack → List Int → Look → Except Fault Look
  | 0, _, _, _, _ => throw .exhausted
  | fuel + 1, n, stack, called, l => do
    if l.visited n stack then return l
    let l := l.visit n stack
    let s := net.state n
    let atEnd := o.stopState = some n ∨ s.kind = .ruleStop
    if atEnd ∧ stack = .unknown then return l.add epsilonSymbol
    if atEnd ∧ stack.isEmpty ∧ o.addEof then return l.add eofSymbol
    if s.kind = .ruleStop ∧ stack ≠ .empty then
      stack.branches.foldlM (fun l branch => do
        let (back, state) ← net.stateAt branch.2
        net.lookFrom o fuel back branch.1 (called.erase state.rule) l) l
    else
      let l := if o.eofAfterStart ∧ s.kind = .ruleStop ∧ s.edges.isEmpty then l.add eofSymbol else l
      s.edges.foldlM (fun l edge =>
        match edge with
        | .rule target _ _ follow =>
          let rule := (net.state target).rule
          if called.contains rule then pure l
          else net.lookFrom o fuel target (.push stack (Int.ofNat follow)) (rule :: called) l
        | .predicate target .. | .precedence target _ =>
          if o.seeThrough then net.lookFrom o fuel target stack called l
          else pure (l.add conditionSymbol)
        | .epsilon target _ | .action target .. => net.lookFrom o fuel target stack called l
        | .wildcard _ =>
          pure { l with symbols := l.symbols.insert ⟨1, net.maxTokenType + 1⟩ }
        | .notSet _ symbols => do
          let rest ← symbols.complement 1 net.maxTokenType
          pure { l with symbols := l.symbols.union rest }
        | .range .. | .atom .. | .set .. =>
          pure { l with symbols := l.symbols.union ((edge.label?).getD .empty) }) l

def lookBudget (net : Network) (stack : Stack) : Nat :=
  (net.states.size + 2) * (net.ruleStart.size + stack.depth + 4)

def look (net : Network) (n : Nat) (stopState : Option Nat) (stack : Stack) : Except Fault IntervalSet := do
  let l ← net.lookFrom ⟨stopState, true, true, false⟩ (net.lookBudget stack) n stack [] {}
  return l.symbols

/-- The symbols that begin each way out of a decision, if one symbol is enough to tell them apart. -/
def firstSymbols? (net : Network) (n : Nat) : Option (Array IntervalSet) := do
  let sets ← (net.state n).edges.mapM fun e =>
    match net.lookFrom ⟨none, false, false, true⟩ (net.lookBudget .empty) e.target .empty [] {} with
    | .ok l =>
      if l.symbols.toList.isEmpty ∨ l.symbols.contains conditionSymbol then none else some l.symbols
    | .error _ => none
  let rec disjoint : List IntervalSet → List Int → Bool
    | [], _ => true
    | s :: rest, seen => !s.toList.any seen.contains && disjoint rest (s.toList ++ seen)
  if disjoint sets.toList [] then some sets else none

end Network

/-- The sets of next symbols that were asked for, by state. -/
abbrev Follow := Std.HashMap Nat IntervalSet

namespace Follow

/-- The symbols that can be read from a state within its rule. -/
def next (f : Follow) (net : Network) (n : Nat) : Except Fault (IntervalSet × Follow) := do
  match f[n]? with
  | some s => return (s, f)
  | none =>
    let s ← net.look n none .unknown
    return (s, f.insert n s)

/-- The set without the mark for the end of the rule. -/
def dropEpsilon (s : IntervalSet) : Except Fault IntervalSet := s.erase epsilonSymbol

/-- The part of `expected` that goes up the callers. -/
def expectedAbove (net : Network) :
    List Int → IntervalSet → IntervalSet → Follow → Except Fault (IntervalSet × IntervalSet × Follow)
  | [], following, acc, f => pure (following, acc, f)
  | caller :: rest, following, acc, f => do
    if caller ≥ 0 ∧ following.contains epsilonSymbol then
      let follow ← net.followOf caller
      let (following, f) ← f.next net follow
      let acc ← dropEpsilon (acc.union following)
      expectedAbove net rest following acc f
    else return (following, acc, f)

/-- The symbols that may come next in a state, where `callers` are the states that called the open
rules, innermost first. The flag tells whether the set is the remembered one of the state. -/
def expected (f : Follow) (net : Network) (state : Int) (callers : List Int) :
    Except Fault (IntervalSet × Bool × Follow) := do
  if state < 0 ∨ state ≥ net.states.size then throw (.illegal "Invalid state number.")
  let (n, _) ← net.stateAt state
  let (following, f) ← f.next net n
  if !following.contains epsilonSymbol then return (following, true, f)
  let acc ← dropEpsilon (IntervalSet.empty.union following)
  let (following, acc, f) ← expectedAbove net callers following acc f
  return (if following.contains epsilonSymbol then acc.insertOne eofSymbol else acc, false, f)

end Follow

end MiniC
