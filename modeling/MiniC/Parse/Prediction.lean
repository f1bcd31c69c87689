import MiniC.Parse.State

/-!
# Predicting alternatives

`Parser.predict` finds out which alternative of a decision fits the tokens that follow, without reading
them. It looks ahead with what it remembers about the decision; where alternatives conflict it looks again
with the callers known. If no alternative fits, one that ended before is taken, and if there is none the
prediction halts.
-/

namespace MiniC.Parser

def updateAutomaton {α : Type} (decision : Nat) (f : Automaton → Automaton × α) : ParseM α := do
  let a := ((← get).automata[decision]?).getD default
  modify fun p => { p with automata := p.automata.setIfInBounds decision default }
  let (a, r) := f a
  modify fun p => { p with automata := p.automata.setIfInBounds decision a }
  return r

def automaton (decision : Nat) : ParseM Automaton := return ((← get).automata[decision]?).getD default

def loopRule (decision : Nat) : ParseM (Option Int) := do
  let a ← automaton decision
  let net := (← get).grammar.net
  return if a.leveled then some (net.state a.state).rule else none

def noAlternative (startIndex : Int) : ParseM Mistake := do
  let start ← tokens (TokenStream.pick startIndex)
  let t ← currentToken
  let p ← get
  return { kind := .noAlternative start, offending := some t, state := p.state, callers := p.callers }

def describeDecision (a : Automaton) : ParseM String := do
  let g := (← get).grammar
  let rule := (g.net.state a.state).rule
  if rule < 0 ∨ rule ≥ Int.ofNat g.ruleNames.size then return toString a.decision
  let name := g.ruleName rule.toNat
  return if name.isEmpty then toString a.decision else s!"{a.decision} ({name})"

/-- Tells the reporters that ask for it about a decision and the text it looked at. -/
def reportDecision (what : String) (decision : Nat) (note : String) (startIndex stopIndex : Int)
    (wanted : Bool → Bool) : ParseM Unit := do
  for r in (← get).reporters do
    match r with
    | .console => pure ()
    | .diagnostic exactOnly =>
      if wanted exactOnly then
        let name ← describeDecision (← automaton decision)
        let text ← tokens (TokenStream.textBetween (some startIndex) (some stopIndex))
        notify s!"{what} d={name}{note}, input='{text}'" none

def printRetry (what : String) (set : ConfigSet) (startIndex stopIndex : Int) : ParseM Unit := do
  let d := (← get).debugging
  if d.all ∨ d.retries then
    let configs ← liftExcept set.render
    if stopIndex ≤ startIndex then fail .outOfRange
    let text ← tokens (TokenStream.textBetween (some startIndex) (some (startIndex + 1)))
    print s!"{what}:{configs}, input={text}"

def reportFullContext (decision : Nat) (set : ConfigSet) (startIndex stopIndex : Int) : ParseM Unit := do
  printRetry s!"reportAttemptingFullContext decision={decision}" set startIndex stopIndex
  reportDecision "reportAttemptingFullContext" decision "" startIndex stopIndex fun _ => true

def reportSensitivity (decision : Nat) (set : ConfigSet) (startIndex stopIndex : Int) : ParseM Unit := do
  printRetry s!"reportContextSensitivity decision={decision}" set startIndex stopIndex
  reportDecision "reportContextSensitivity" decision "" startIndex stopIndex fun _ => true

def reportAmbiguity (decision : Nat) (exact : Bool) (alts : Option (List Int)) (set : ConfigSet)
    (startIndex stopIndex : Int) : ParseM Unit := do
  let given := match alts with
    | some alts => ConfigSet.renderAlts alts
    | none => "None"
  printRetry s!"reportAmbiguity {given}" set startIndex stopIndex
  let shown := ConfigSet.renderAlts (alts.getD set.alts)
  reportDecision "reportAmbiguity" decision s!": ambigAlts={shown}" startIndex stopIndex fun exactOnly =>
    exact || !exactOnly

/-- The written form of the open rules: the states that called them. -/
def callersText (callers : List Int) : String :=
  let rec go : List Int → String
    | [] => ""
    | c :: rest =>
      let here := if c = -1 then "" else toString c
      let gap := match rest with
        | [] => ""
        | d :: _ => if d = -1 then "" else " "
      here ++ gap ++ go rest
  "[" ++ go callers ++ "]"

def nodeText (n : DecisionNode) (number : Nat) : Except Fault String := do
  let configs ← n.set.render
  let result := if !n.accept then ""
    else match n.guards with
      | some pairs => "=>[" ++ ", ".intercalate (pairs.map fun _ => "<PredPrediction>") ++ "]"
      | none => "=>" ++ toString n.prediction
  return s!"{number}:{configs}{result}"

def allowedAlts (decision : Nat) (pairs : List (Guard × Int)) : ParseM (List Int) := do
  let env := (← get).env (← loopRule decision)
  let d := (← get).debugging
  if d.all ∨ d.nodes then
    for (g, alt) in pairs do
      if !g.isAlways then
        let hit ← liftExcept (g.eval env.level env.ask)
        let shown := match hit with
          | some true => "True"
          | some false => "False"
          | none => "None"
        print s!"eval pred ({g.render}, {alt})={shown}"
        if hit == some true then print s!"PREDICT {alt}"
  liftExcept (Closure.allowed env pairs true)

/-- The node after a symbol: -2 if no alternative fits. -/
def nextNode (decision n : Nat) (symbol : Int) : ParseM Int := do
  let a ← automaton decision
  let known := a.edgeOf n symbol
  if known ≠ -1 then return known
  let p ← get
  let net := p.grammar.net
  match ← liftExcept (Closure.step (p.env (← loopRule decision)) (a.node n).set symbol false) with
  | none => updateAutomaton decision fun a => (a.addEdge net n symbol (-2), -2)
  | some reach =>
    let node ← liftExcept (Automaton.nodeOf net p.mode a.state reach)
    updateAutomaton decision fun a =>
      let (a, m) := a.addNode node
      (a.addEdge net n symbol (Int.ofNat m), Int.ofNat m)

/-- Where no symbol fits: an alternative that ended before, else the mistake. -/
def fallBack (decision : Nat) (set : ConfigSet) (startIndex : Int) : ParseM Int := do
  let mistake ← noAlternative startIndex
  seek startIndex
  let env := (← get).env (← loopRule decision)
  let alt ← liftExcept (Closure.fallback env set)
  if alt ≠ 0 then return alt else throw (.mistake mistake)

def predictInContext (decision : Nat) (startIndex : Int) : Nat → ConfigSet → Int → ParseM Int
  | 0, _, _ => fail .exhausted
  | fuel + 1, set, symbol => do
    let p ← get
    let env := p.env (← loopRule decision)
    match ← liftExcept (Closure.step env set symbol true) with
    | none => fallBack decision set startIndex
    | some reach =>
      let sets ← liftExcept reach.altSubsets
      let only := reach.onlyAlt
      let reach := { reach with uniqueAlt := only }
      if only ≠ 0 then
        reportSensitivity decision reach startIndex (← streamIndex)
        return only
      let ambiguous ← if p.mode ≠ .exact then liftExcept (AltSets.singleViable sets)
        else if AltSets.allConflict sets && AltSets.allEqual sets then liftExcept (AltSets.singleViable sets)
        else pure 0
      if ambiguous ≠ 0 then
        reportAmbiguity decision (p.mode = .exact) none reach startIndex (← streamIndex)
        return ambiguous
      if symbol ≠ eofSymbol then tokens TokenStream.consume
      let symbol ← if symbol ≠ eofSymbol then lookType 1 else pure symbol
      predictInContext decision startIndex fuel reach symbol

def lookahead : ParseM Nat := return (← tokens TokenStream.bound) + 4

/-- Looks at a decision again with the callers known. `conflict` are the places that made it necessary. -/
def retryInContext (decision : Nat) (conflict : ConfigSet) (startIndex : Int) : ParseM Int := do
  let p ← get
  let a ← automaton decision
  let below ← liftExcept (Closure.stackOf p.grammar.net p.innerCallers)
  let set ← liftExcept (Closure.start (p.env (← loopRule decision)) a.state below true)
  reportFullContext decision conflict startIndex (← streamIndex)
  if p.debugging.all ∨ p.debugging.decisions then fail .unsuitable
  seek startIndex
  predictInContext decision startIndex (← lookahead) set (← lookType 1)

def predictFrom (decision : Nat) (startIndex : Int) : Nat → Nat → Int → ParseM Int
  | 0, _, _ => fail .exhausted
  | fuel + 1, n, symbol => do
    let target ← nextNode decision n symbol
    if target < 0 then
      let set := ((← automaton decision).node n).set
      return ← fallBack decision set startIndex
    let m := target.toNat
    let node := (← automaton decision).node m
    let mode := (← get).mode
    if node.needsContext ∧ mode ≠ .sll then
      match node.guards with
      | some pairs =>
        let here ← streamIndex
        if here ≠ startIndex then seek startIndex
        match ← allowedAlts decision pairs with
        | [alt] => return alt
        | _ => if here ≠ startIndex then seek here
      | none => pure ()
      if (← get).debugging.nodes then
        let text ← liftExcept (nodeText node m)
        let outer := callersText (← get).callers
        print s!"ctx sensitive state {outer} in {text}"
      retryInContext decision node.set startIndex
    else if node.accept then
      match node.guards with
      | none => return node.prediction
      | some pairs =>
        let stop ← streamIndex
        seek startIndex
        match ← allowedAlts decision pairs with
        | [] => throw (.mistake (← noAlternative startIndex))
        | [alt] => return alt
        | alts =>
          reportAmbiguity decision false (some alts) node.set startIndex stop
          liftExcept (AltSets.least alts)
    else
      if symbol ≠ eofSymbol then tokens TokenStream.consume
      let symbol ← if symbol ≠ eofSymbol then lookType 1 else pure symbol
      predictFrom decision startIndex fuel m symbol

def startNode (decision : Nat) : ParseM Nat := do
  let a ← automaton decision
  let p ← get
  let level := p.level
  match if a.leveled then a.startFor level else a.start with
  | some n => return n
  | none =>
    let s := p.grammar.net.state a.state
    let leveled := a.leveled || (s.kind = .starLoopEntry && s.precedenceDecision)
    if p.debugging.all ∨ p.debugging.decisions then fail .unsuitable
    let env := p.env (if leveled then some s.rule else none)
    let set ← liftExcept (Closure.start env a.state .empty false)
    if leveled then
      let set ← liftExcept (Closure.filterPrecedence env set)
      updateAutomaton decision fun a =>
        let (a, n) := (a.setLeveled true).addNode { set }
        (a.setStartFor level n, n)
    else
      updateAutomaton decision fun a =>
        let (a, n) := a.addNode { set }
        ({ a with start := some n }, n)

def predict (decision : Nat) : ParseM Int := do
  let d := (← get).debugging
  if d.all ∨ d.decisions then
    let t ← currentToken
    if t.type ≠ Token.eof then fail .missing
    print s!"adaptivePredict decision {decision} exec LA(1)==EOF line {Token.lineText t.line}:{t.column}"
  let index ← streamIndex
  let r ← observe do
    let n ← startNode decision
    predictFrom decision index (← lookahead) n (← lookType 1)
  seek index
  match r with
  | .ok alt => return alt
  | .error e => throw e

end MiniC.Parser
