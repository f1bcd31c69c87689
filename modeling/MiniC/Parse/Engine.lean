import MiniC.Parse.Recovery

/-!
# Parsing by following the network

`Parser.runRule` opens a rule, follows its states to the end and closes it; a mistake inside is reported,
and the rest of the rule is given up. `Parser.walk` follows the states of a rule up to a given one. At a
decision where one symbol is enough the alternative is chosen by that symbol, at any other it is predicted.
The loop of a left-recursive rule wraps what was read so far into a new node for each operator.
-/

namespace MiniC.Parser

def lastToken : ParseM (Option Token) := tokens (TokenStream.look (-1))

def enterRule (rule : Nat) (start : Nat) : ParseM Unit := do
  let caller := (← get).state
  setState (Int.ofNat start)
  let t ← currentToken
  modify fun p =>
    { p with frames := { info := { rule := Int.ofNat rule, caller, start := some t } } :: p.frames }
  announceEnter

/-- Closes the innermost rule, whose node becomes a child of the rule around it. -/
def leaveRule : ParseM ParseTree := do
  let stop ← lastToken
  modifyTop fun f => { f with info := { f.info with stop } }
  announceExit
  let p ← get
  match p.frames with
  | [] => fail .missing
  | top :: rest =>
    set { p with frames := rest, state := top.info.caller }
    if p.build then addChild top.toTree
    return top.toTree

def enterRecursion (rule : Nat) (start : Nat) (level : Int) : ParseM Unit := do
  modify fun p => { p with levels := level :: p.levels }
  enterRule rule start

/-- Wraps the innermost rule into a new node of the same rule. -/
def wrapRecursion (start : Nat) : ParseM Unit := do
  let stop ← lastToken
  modify fun p =>
    match p.frames with
    | [] => p
    | top :: rest =>
      let inner : Frame := { top with info := { top.info with caller := Int.ofNat start, stop } }
      let info : RuleInfo := { rule := top.info.rule, caller := top.info.caller, start := top.info.start }
      { p with frames := { info, children := if p.build then #[inner.toTree] else #[] } :: rest }
  announceEnter

def leaveRecursion : ParseM ParseTree := do
  modify fun p => { p with levels := p.levels.tail }
  let stop ← lastToken
  modifyTop fun f => { f with info := { f.info with stop } }
  announceExit
  let p ← get
  match p.frames with
  | [] => fail .missing
  | top :: rest =>
    set { p with frames := rest }
    if p.build then addChild top.toTree
    return top.toTree

def refusal (condition : String) : ParseM Mistake := do
  let t ← currentToken
  let p ← get
  return {
    kind := .refused
    offending := some t
    state := p.state
    callers := p.callers
    message := some ("failed predicate: \x7b" ++ condition ++ "\x7d?") }

/-- Reads what an edge of a state stands for, rules apart. -/
def passEdge (s : Nat) (edge : Edge) : ParseM Unit := do
  match edge with
  | .epsilon .. | .rule .. => pure ()
  | .atom _ symbol =>
    setState (Int.ofNat s)
    let t ← matchToken symbol
    modifyTop fun f => { f with first := f.first.or (some t) }
  | .action .. =>
    let p ← get
    match p.grammar.announce, (p.frames.head?).bind (·.first) with
    | some f, some t => print (f t)
    | _, _ => pure ()
  | .precedence _ level =>
    setState (Int.ofNat s)
    if !(← get).allowsLevel level then
      throw (.mistake (← refusal s!"self.precpred(self._ctx, {level})"))
  | .predicate _ rule index _ =>
    setState (Int.ofNat s)
    if (← liftExcept ((← get).askCondition rule index)) ≠ some true then
      throw (.mistake (← refusal ""))
  | .set .. | .range .. | .notSet .. =>
    setState (Int.ofNat s)
    let type ← lookType 1
    if edge.reads type 1 0xFFFF then
      let _ ← consume
    else
      let _ ← recoverInline
  | .wildcard _ =>
    setState (Int.ofNat s)
    let _ ← matchAny

/-- The symbols that begin each way out of a state, if one symbol is enough to choose. -/
def choices? (s : NetState) : ParseM (Option (Array IntervalSet)) := do
  return ((← get).grammar.choices[s.decision.toNat]?).join

/-- The second way out of a block leads around it. -/
def isOptional (s : NetState) : Bool :=
  s.edges.size = 2 && (s.edges[1]?).map Edge.target == s.blockEnd

def chooseAlternative (n : Nat) (s : NetState) : ParseM Nat := do
  setState (Int.ofNat n)
  match ← choices? s with
  | none =>
    sync
    return (← predict s.decision.toNat).toNat
  | some sets =>
    let type ← lookType 1
    match sets.findIdx? (·.contains type) with
    | some i => return i + 1
    | none =>
      if isOptional s then return 2
      let t ← currentToken
      let p ← get
      throw (.mistake
        { kind := .noAlternative t, offending := some t, state := p.state, callers := p.callers })

def chooseIteration (s : NetState) : ParseM Bool := do
  match ← choices? s with
  | none => return (← predict s.decision.toNat) = 1
  | some sets =>
    let type ← lookType 1
    return (sets[0]?).any (·.contains type)

/-- Sets the label of the alternative of a rule that was chosen at its first decision. The labelled node
starts anew, without tokens that were dropped before. -/
def setLabel (n : Nat) (s : NetState) (alternative : Nat) : ParseM Unit := do
  let g := (← get).grammar
  let rule := s.rule.toNat
  let first := ((g.net.ruleStart[rule]?).map g.net.state).bind fun start => (start.edges[0]?).map Edge.target
  if first = some n then
    match g.labelOf? rule alternative with
    | some label =>
      modifyTop fun f => { f with info := { f.info with label := some label }, children := #[] }
    | none => pure ()

def targetOf (s : NetState) (i : Nat) : ParseM Nat := do
  match s.edges[i]? with
  | some e => pure e.target
  | none => fail .outOfRange

mutual
def runRule : Nat → Nat → Int → ParseM ParseTree
  | 0, _, _ => fail .exhausted
  | fuel + 1, rule, level => do
    let net := (← get).grammar.net
    let start ← liftExcept (entryAt net.ruleStart (Int.ofNat rule))
    let stop ← liftExcept (entryAt net.ruleStop (Int.ofNat rule))
    let recursive := (net.state start).leftRecursive == some true
    if recursive then enterRecursion rule start level else enterRule rule start
    let done ← observe (walk fuel start stop)
    let done ← match done with
      | .error (.mistake m) => observe do
          reportMistake m
          recover
      | other => pure other
    let tree ← if recursive then leaveRecursion else leaveRule
    match done with
    | .ok () => return tree
    | .error e => throw e

def walk : Nat → Nat → Nat → ParseM Unit
  | 0, _, _ => fail .exhausted
  | fuel + 1, n, stop => do
    if n = stop then return
    let s := (← get).grammar.net.state n
    match s.kind with
    | .blockStart =>
      let alternative ← chooseAlternative n s
      setLabel n s alternative
      let blockEnd := s.blockEnd.getD stop
      walk fuel (← targetOf s (alternative - 1)) blockEnd
      walk fuel blockEnd stop
    | .plusBlockStart =>
      setState (Int.ofNat n)
      sync
      let back := s.loopBack.getD stop
      repeatPlus fuel n back
      walk fuel (← targetOf ((← get).grammar.net.state back) 1) stop
    | .starLoopEntry =>
      if s.precedenceDecision then
        let last ← lastToken
        modifyTop fun f => { f with info := { f.info with stop := last } }
      setState (Int.ofNat n)
      sync
      repeatStar fuel n
      walk fuel (← targetOf s 1) stop
    | _ =>
      let some edge := s.edges[0]? | fail .outOfRange
      match edge with
      | .rule target rule level follow =>
        setState (Int.ofNat n)
        let _ := target
        let _ ← runRule fuel rule.toNat level
        walk fuel follow stop
      | edge =>
        passEdge n edge
        walk fuel edge.target stop

/-- The body of a loop that runs at least once, as long as it goes on. -/
def repeatPlus : Nat → Nat → Nat → ParseM Unit
  | 0, _, _ => fail .exhausted
  | fuel + 1, n, back => do
    let net := (← get).grammar.net
    let s := net.state n
    let blockEnd := s.blockEnd.getD back
    let alternative ← if s.edges.size > 1 then chooseAlternative n s else pure 1
    walk fuel (← targetOf s (alternative - 1)) blockEnd
    setState (Int.ofNat back)
    sync
    if ← chooseIteration (net.state back) then repeatPlus fuel n back

/-- The iterations of a loop; in a left-recursive rule each of them wraps what was read. -/
def repeatStar : Nat → Nat → ParseM Unit
  | 0, _ => fail .exhausted
  | fuel + 1, n => do
    let net := (← get).grammar.net
    let s := net.state n
    if ← chooseIteration s then
      let block ← targetOf s 0
      let b := net.state block
      if s.precedenceDecision then announceExit
      let alternative ← if b.edges.size > 1 then chooseAlternative block b else pure 1
      if s.precedenceDecision then
        let start ← liftExcept (entryAt net.ruleStart s.rule)
        wrapRecursion start
      walk fuel (← targetOf b (alternative - 1)) (b.blockEnd.getD block)
      setState (Int.ofNat (s.loopBack.getD n))
      sync
      repeatStar fuel n
end

def budget : ParseM Nat := do
  let p ← get
  return ((← tokens TokenStream.bound) + 8) * (p.grammar.net.states.size + 8) * 4

def run (rule : Nat) : ParseM ParseTree := do runRule (← budget) rule 0

end MiniC.Parser
