import MiniC.Parse.Engine

/-!
# Handling parsers

What can be done with a parser besides parsing: adding and removing listeners, tracing, starting again, opening a
rule that is none of the grammar's, and reporting mistakes that were found elsewhere.
-/

namespace MiniC.Parser

def listenerCount : ParseM Nat := return ((← get).listeners.getD []).length

/-- Removes the first listener of a kind; there has to be one if there are listeners at all. -/
def removeListener (l : Option Listener) : ParseM Unit := do
  match (← get).listeners, l with
  | none, _ => pure ()
  | some ls, some l =>
    if !ls.contains l then fail .malformed
    let rest := ls.erase l
    modify fun p => { p with listeners := if rest.isEmpty then none else some rest }
  | some _, none => fail .malformed

def listen (given : Bool) : ParseM Nat := do
  if !given then fail (.emptyReference "listener")
  modify fun p => { p with listeners := some (p.listeners.getD [] ++ [.record]) }
  listenerCount

/-- Removes one recording listener, or all listeners, and answers how many are left. -/
def unlisten (one : Bool) : ParseM Nat := do
  if one then removeListener (some .record) else modify fun p => { p with listeners := none }
  listenerCount

/-- The events recorded since this was last asked. -/
def takeEvents : ParseM (Array String) := do
  let events := (← get).events
  modify fun p => { p with events := #[] }
  return events

def setTrace (on : Bool) : ParseM Unit := do
  let tracer := if (← get).tracing then some .trace else none
  if on then
    if tracer.isSome then removeListener tracer
    modify fun p => { p with tracing := true, listeners := some (p.listeners.getD [] ++ [.trace]) }
  else
    removeListener tracer
    modify fun p => { p with tracing := false }

def restart : ParseM Unit := do
  seek 0
  endError
  modify fun p => { p with frames := [], errors := 0 }
  setTrace false
  modify fun p => { p with levels := [0] }

/-- Opens a rule that is none of the grammar's, called from a state, or else without a caller and as the only
rule that is open. -/
def enterForeign (caller : Option Int) : ParseM Unit := do
  let start ← currentToken
  modify fun p =>
    let f : Frame := { info := { rule := -1, caller := caller.getD (-1), start := some start } }
    { p with frames := if caller.isSome then f :: p.frames else [f] }

def openRules : ParseM (List String) := do
  let p ← get
  return p.frames.map fun f => if f.info.rule < 0 then "n/a" else p.grammar.ruleName f.info.rule.toNat

def mayFollow (l : Int) : ParseM Bool := do
  let p ← get
  if p.levels.isEmpty then fail .outOfRange else return p.allowsLevel l

/-- Puts levels into force, the last one innermost, and answers that one. -/
def setLevels (ls : List Int) : ParseM Int := do
  modify fun p => { p with levels := ls.reverse }
  return (← get).level

def conditionAt (rule index l : Int) : ParseM (Option Bool) := do
  let _ ← setLevels [l]
  liftExcept ((← get).askCondition rule index)

/-- The tokens that may come next within the innermost rule. -/
def expectedInRule : ParseM IntervalSet := do
  let p ← get
  let (n, _) ← liftExcept (p.grammar.net.stateAt p.state)
  nextSymbols n

/-- Stops telling the first reporter, and answers how many are left. -/
def dropReporter : ParseM Nat := do
  match (← get).reporters with
  | [] => fail .outOfRange
  | _ :: rest =>
    modify fun p => { p with reporters := rest }
    return rest.length

/-- Tokens that are read from here on keep the text they stand for. -/
def keepTexts : ParseM Unit :=
  modify fun p => { p with stream := match p.stream.source with
    | .scanner sc => { p.stream with source := .scanner { sc with copyText := true } }
    | .list _ => p.stream }

def runNamed (name : String) : ParseM String := do
  let g := (← get).grammar
  match g.ruleIndex? name with
  | some rule => return (← run rule).render g.ruleNames
  | none => fail .missing

/-- Reports a mistake of a kind at the current token, whatever was reported before. The answer is its text, its
state and the tokens that were expected. -/
def reportNew (kind : MistakeKind) (message : Option String) : ParseM (String × Int × Option IntervalSet) := do
  modify fun p => { p with recovering := false }
  let (m, set) ← if kind = .other then
      pure ({ kind, offending := none, state := -1, callers := [], message : Mistake }, none)
    else do
      if kind = .refused then
        let (_, s) ← liftExcept ((← get).grammar.net.stateAt (← get).state)
        if s.edges.isEmpty then fail .outOfRange
      let m ← mismatch
      pure ({ m with kind, message }, some ())
  reportMistake m
  match set with
  | some () =>
    let (set, _) ← expected
    return (message.getD "None", m.state, some set)
  | none => return (message.getD "None", m.state, none)

/-- The same for a mistake of a named kind: a condition that was refused, with its text and a message in place of it;
any other mistake, with its message; a token that does not fit; or no alternative that fits. -/
def failAs (kind : String) (text message : Option String) : ParseM (String × Int × Option IntervalSet) :=
  match kind with
  | "predicate" =>
    match message, text with
    | some m, _ => reportNew .refused (some m)
    | none, some t => reportNew .refused (some ("failed predicate: \x7b" ++ t ++ "\x7d?"))
    | none, none => do
      modify fun p => { p with recovering := false }
      fail .unsuitable
  | "other" => reportNew .other text
  | "mismatch" => reportNew .mismatch none
  | "viable" => do reportNew (.noAlternative (← currentToken)) none
  | _ => fail .missing

end MiniC.Parser
