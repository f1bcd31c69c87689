import MiniC.Parse.Prediction

/-!
# Errors and recovery

When a token does not fit, the parser reports it and goes on: it drops a token if the next one fits, makes
one up if the current one fits behind it, or leaves the rule and skips what no open rule waits for. Until a
token fits again no further error is reported.
-/

namespace MiniC.Parser

/-- The tokens that may come next, and whether the set is the remembered one of the state. -/
def expected : ParseM (IntervalSet × Bool) := do
  let p ← get
  let (set, remembered, follow) ← liftExcept (p.follow.expected p.grammar.net p.state p.callers)
  modify fun p => { p with follow }
  return (set, remembered)

def nextSymbols (n : Nat) : ParseM IntervalSet := do
  let p ← get
  let (set, follow) ← liftExcept (p.follow.next p.grammar.net n)
  modify fun p => { p with follow }
  return set

def renderSet (set : IntervalSet) : ParseM String := do
  liftExcept (set.render (← get).grammar.vocabulary)

def endError : ParseM Unit :=
  modify fun p => { p with recovering := false, lastErrorStates := none, lastErrorIndex := -1 }

def mismatch : ParseM Mistake := do
  let t ← currentToken
  let p ← get
  return { kind := .mismatch, offending := some t, state := p.state, callers := p.callers }

/-- Reports a mistake, unless one was reported and no token fitted since. -/
def reportMistake (m : Mistake) : ParseM Unit := do
  if (← get).recovering then return
  modify fun p => { p with recovering := true }
  match m.kind with
  | .noAlternative start =>
    let input ← if start.type = Token.eof then pure "<EOF>"
      else tokens (TokenStream.textBetween (some start.index) (m.offending.map (·.index)))
    notify ("no viable alternative at input '" ++ escapeBreaks input ++ "'") m.offending
  | .mismatch =>
    let p ← get
    let (set, _, follow) ← liftExcept (p.follow.expected p.grammar.net m.state m.callers)
    modify fun p => { p with follow }
    notify ("mismatched input " ++ displayToken m.offending ++ " expecting " ++ (← renderSet set)) m.offending
  | .refused =>
    let some top := (← get).frames.head? | fail .missing
    let name ← liftExcept ((← get).ruleNameOf top.info.rule)
    notify ("rule " ++ name ++ " " ++ m.message.getD "") m.offending
  | .other =>
    print "unknown recognition error type: RecognitionException"
    match m.message with
    | some text => notify text m.offending
    | none => fail .unsuitable

def reportUnwanted : ParseM Unit := do
  if (← get).recovering then return
  modify fun p => { p with recovering := true }
  let t ← currentToken
  let (set, _) ← expected
  notify ("extraneous input " ++ t.display ++ " expecting " ++ (← renderSet set)) (some t)

def reportMissing : ParseM Unit := do
  if (← get).recovering then return
  modify fun p => { p with recovering := true }
  let t ← currentToken
  let (set, _) ← expected
  notify ("missing " ++ (← renderSet set) ++ " at " ++ t.display) (some t)

/-- Reads the current token into the innermost rule; it is bad while the parser recovers. -/
def consume : ParseM Token := do
  let t ← currentToken
  if t.type ≠ Token.eof then tokens TokenStream.consume
  let p ← get
  let heard := p.listeners.any (!·.isEmpty)
  if p.build ∨ heard then
    addLeaf t p.recovering
    if heard then announceToken t
  return t

def skipUntil (set : IntervalSet) : Nat → ParseM Unit
  | 0 => fail .exhausted
  | fuel + 1 => do
    let type ← lookType 1
    if type ≠ Token.eof ∧ !set.contains type then
      let _ ← consume
      skipUntil set fuel

def recoverySet : ParseM IntervalSet := do
  let p ← get
  let rec go : List Int → IntervalSet → ParseM IntervalSet
    | [], acc => pure acc
    | caller :: rest, acc => do
      if caller < 0 then return acc
      let follow ← liftExcept (p.grammar.net.followOf caller)
      go rest (acc.union (← nextSymbols follow))
  liftExcept (Follow.dropEpsilon (← go p.callers .empty))

/-- Skips what no open rule waits for. If the same error comes again without progress, one token is
skipped in any case. -/
def recover : ParseM Unit := do
  let p ← get
  if p.bail then fail .cancelled
  if p.lastErrorIndex = p.stream.index ∧ p.lastErrorStates.any (·.contains p.state) then
    let _ ← consume
  modify fun p =>
    { p with
      lastErrorIndex := p.stream.index
      lastErrorStates := some (p.lastErrorStates.getD [] ++ [p.state]) }
  skipUntil (← recoverySet) (← lookahead)

/-- Drops the current token if the one behind it fits, and answers that one. -/
def dropOne : ParseM (Option Token) := do
  let second ← lookType 2
  let (set, _) ← expected
  if set.contains second then
    reportUnwanted
    let _ ← consume
    let t ← currentToken
    endError
    return some t
  return none

/-- The current token fits behind the one that is missing. -/
def canInsert : ParseM Bool := do
  let type ← lookType 1
  let p ← get
  let net := p.grammar.net
  let (_, s) ← liftExcept (net.stateAt p.state)
  let some edge := s.edges[0]? | fail .outOfRange
  let below ← if p.frames.isEmpty then pure .unknown
    else liftExcept (Closure.stackOf net p.innerCallers)
  let set ← liftExcept (net.look edge.target none below)
  if set.contains type then
    reportMissing
    return true
  return false

def missingName (v : Vocabulary) (type : Int) : Except Fault String := do
  if type = Token.eof then return "<missing EOF>"
  let name ← if type < v.literal.size then entryAt v.literal type
    else if type < v.symbolic.size then entryAt v.symbolic type
    else pure "None"
  return s!"<missing {name}>"

def makeMissing : ParseM Token := do
  let t ← currentToken
  let (set, _) ← expected
  let type := set.get 0
  let text ← liftExcept (missingName (← get).grammar.vocabulary type)
  let place ← if t.type = Token.eof then pure ((← tokens (TokenStream.look (-1))).getD t) else pure t
  return { type, text := some text, line := place.line, column := place.column }

/-- Recovers from a token that does not fit without leaving the rule, if that is possible. -/
def recoverInline : ParseM Token := do
  if (← get).bail then fail .cancelled
  match ← dropOne with
  | some t =>
    let _ ← consume
    return t
  | none =>
    if ← canInsert then makeMissing else throw (.mistake (← mismatch))

/-- The current token may come next, here or in a caller. -/
def isExpected (symbol : Int) : ParseM Bool := do
  let p ← get
  let (n, _) ← liftExcept (p.grammar.net.stateAt p.state)
  let rec go : List Int → IntervalSet → ParseM Bool
    | [], following => pure (following.contains epsilonSymbol && symbol == eofSymbol)
    | caller :: rest, following => do
      if caller < 0 ∨ !following.contains epsilonSymbol then
        return following.contains epsilonSymbol && symbol == eofSymbol
      let next ← liftExcept (p.grammar.net.followOf caller)
      let following ← nextSymbols next
      if following.contains symbol then return true
      go rest following
  let following ← nextSymbols n
  if following.contains symbol then return true
  if !following.contains epsilonSymbol then return false
  go p.callers following

/-- Checks at a decision that the current token can go on, and recovers early if not. -/
def sync : ParseM Unit := do
  let p ← get
  if p.recovering ∨ p.bail then return
  let (n, s) ← liftExcept (p.grammar.net.stateAt p.state)
  let type ← lookType 1
  if type = Token.eof then return
  if (← nextSymbols n).contains type then return
  if ← isExpected type then return
  match s.kind with
  | .blockStart | .starBlockStart | .plusBlockStart | .starLoopEntry =>
    match ← dropOne with
    | some _ => return
    | none => throw (.mistake (← mismatch))
  | .plusLoopBack | .starLoopBack =>
    reportUnwanted
    let (set, remembered) ← expected
    let wide := set.union (← recoverySet)
    if remembered then modify fun p => { p with follow := p.follow.insert n wide }
    skipUntil wide (← lookahead)
  | _ => return

def matchToken (type : Int) : ParseM Token := do
  let t ← currentToken
  if t.type = type then
    endError
    let _ ← consume
    return t
  let t ← recoverInline
  if (← get).build ∧ t.index = -1 then addLeaf t true
  return t

def matchAny : ParseM Token := do
  let t ← currentToken
  if t.type > 0 then
    endError
    let _ ← consume
    return t
  let t ← recoverInline
  if (← get).build ∧ t.index = -1 then addLeaf t true
  return t

end MiniC.Parser
