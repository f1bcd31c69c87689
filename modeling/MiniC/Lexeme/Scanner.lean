import MiniC.Lexeme.Automaton
import MiniC.Lexeme.Token

/-!
# From characters to tokens

A `Scanner` reads a text and gives out its tokens one after the other. Text that no rule reads is
reported and left out. Rules may have actions that set the type or the channel of a token, skip it,
prolong it, or change the mode, which is the set of rules in use.
-/

namespace MiniC

/-- What a lexer is made of: its network, and what the actions of its own do. Such an action is given the
rule, its number and the text read so far, and may choose the type of the token. -/
structure LexerSpec where
  net : Network
  custom : Option (Int → Int → String → Except Fault (Option Int))
  deriving Inhabited

/-- Types that tell a scanner to go on. -/
def skipType : Int := -3

/-- The type that joins what was read to what comes next. -/
def moreType : Int := -2

structure Scanner where
  spec : LexerSpec
  input : Option CharStream
  line : Int := 1
  column : Int := 0
  mode : Int := 0
  modes : List Int := []
  matchMode : Int := 0
  matchStart : Int := -1
  automata : Array LexAutomaton
  token : Option Token := none
  tokenStart : Cursor := ⟨-1, -1, -1⟩
  hitEof : Bool := false
  channel : Int := 0
  type : Int := 0
  text : Option String := none
  /-- Tokens keep the text they stand for. -/
  copyText : Bool := false
  reporting : Bool := true
  tracing : Bool := false
  messages : Array String := #[]
  printed : Array String := #[]
  deriving Inhabited

/-- An action on a scanner. What was done before a fault stays done. -/
abbrev ScanM := ExceptT Fault (StateM Scanner)

namespace Scanner

def ofStream (spec : LexerSpec) (input : CharStream) : Scanner where
  spec
  input := some input
  automata := Array.replicate spec.net.decisions.size {}

def ofString (spec : LexerSpec) (text : String) : Scanner := ofStream spec (.ofString text)

def stream : ScanM CharStream := do
  match (← get).input with
  | some s => pure s
  | none => throw .missing

def setStream (s : CharStream) : ScanM Unit := modify fun sc => { sc with input := some s }

def passOne : ScanM Unit := do
  let s ← stream
  let sc ← get
  let p := Cursor.pass ⟨s.index, sc.line, sc.column⟩ (s.peek 1)
  set { sc with line := p.line, column := p.column }
  match s.advance with
  | .ok s => setStream s
  | .error e => throw e

def currentText : ScanM String := do
  match (← get).text with
  | some t => pure t
  | none =>
    let s ← stream
    return s.textBetween (← get).matchStart (s.index - 1)

def pushMode (m : Int) : ScanM Unit :=
  modify fun sc => { sc with modes := sc.mode :: sc.modes, mode := m }

def popMode : ScanM Int := do
  match (← get).modes with
  | [] => throw (.illegal "Empty Stack")
  | m :: rest =>
    modify fun sc => { sc with mode := m, modes := rest }
    return m

def runCustom (rule action : Int) : ScanM Unit := do
  match (← get).spec.custom with
  | none => throw .missing
  | some f =>
    let text ← currentText
    match f rule action text with
    | .ok (some type) => modify fun sc => { sc with type }
    | .ok none => pure ()
    | .error e => throw e

def runAction : LexerAction → ScanM Unit
  | .channel c => modify fun sc => { sc with channel := c }
  | .custom r a => runCustom r a
  | .mode m => modify fun sc => { sc with mode := m }
  | .more => modify fun sc => { sc with type := moreType }
  | .popMode => do let _ ← popMode
  | .pushMode m => pushMode m
  | .skip => modify fun sc => { sc with type := skipType }
  | .type t => modify fun sc => { sc with type := t }
  | .indexed _ a => runAction a

def seek (i : Int) : ScanM Unit := do setStream ((← stream).seek i)

/-- Runs actions in order. One that is tied to an offset is run there; whatever happens, the scanner ends
up where it stood if the last such action moved it. -/
def runActions (actions : List LexerAction) (start : Int) : ScanM Unit := do
  let stop := (← stream).index
  let rec go (moved : Bool) : List LexerAction → ScanM Unit
    | [] => if moved then seek stop else pure ()
    | a :: rest => do
      let (a, moved) ← match a with
        | .indexed offset inner => do
          seek (start + offset)
          pure (inner, start + offset != stop)
        | .custom r n => do
          seek stop
          pure (.custom r n, false)
        | other => pure (other, moved)
      tryCatch (runAction a) fun e => do
        if moved then seek stop
        throw e
      go moved rest
  go false actions

def startNode (mode : Int) : ScanM (Nat × LexAutomaton × Nat) := do
  let sc ← get
  let place ← match placeAt sc.automata.size mode with
    | some k => pure k
    | none => throw .outOfRange
  let a := (sc.automata[place]?).getD {}
  match a.start with
  | some n => return (place, a, n)
  | none =>
    let first ← match entryAt sc.spec.net.modeStart mode with
      | .ok s => pure s
      | .error e => throw e
    if sc.tracing then
      modify fun sc => { sc with printed := sc.printed.push s!"matchATN mode {mode} start: {first}" }
      throw .missing
    let set ← match LexSet.start sc.spec.net first with
      | .ok s => pure s
      | .error e => throw e
    let (a, n) := a.addNode sc.spec.net set
    return (place, if set.conditional then a else { a with start := some n }, n)

/-- Reads the longest piece of text that a rule of the mode reads and answers the token type of the rule,
or `none` if there is no such piece. -/
def readPiece (mode : Int) : ScanM (Option Int) := do
  let s ← stream
  modify fun sc => { sc with matchMode := mode, matchStart := s.index }
  let (place, a, n) ← startNode mode
  modify fun sc => { sc with automata := sc.automata.setIfInBounds place {} }
  let sc ← get
  let here : Cursor := ⟨s.index, sc.line, sc.column⟩
  let fuel := (s.size - s.index).toNat + 2
  match LexAutomaton.longest sc.spec.net s s.index fuel a n here (a.acceptedAt n here none) with
  | .error e => throw e
  | .ok (a, p, symbol, best) =>
    modify fun sc => { sc with automata := sc.automata.setIfInBounds place a }
    match best with
    | some hit =>
      setStream { s with index := hit.at_.index }
      modify fun sc => { sc with line := hit.at_.line, column := hit.at_.column }
      match hit.actions with
      | some actions => runActions actions s.index
      | none => pure ()
      return some hit.type
    | none =>
      setStream { s with index := p.index }
      modify fun sc => { sc with line := p.line, column := p.column }
      return if symbol = -1 ∧ p.index = s.index then some Token.eof else none

def makeToken (type : Int) (text : Option String) (channel start stop line column : Int) : ScanM Token := do
  let s ← stream
  let copied := (← get).copyText
  let own := match text with
    | some t => t
    | none => if copied then s.textBetween start stop else Token.textOf s start stop
  return { type, text := some own, channel, start, stop, line := some line, column }

def emit : ScanM Token := do
  let sc ← get
  let s ← stream
  let t ← makeToken sc.type sc.text sc.channel sc.tokenStart.index (s.index - 1) sc.tokenStart.line
    sc.tokenStart.column
  modify fun sc => { sc with token := some t }
  return t

def emitEof : ScanM Token := do
  let sc ← get
  let s ← stream
  let t ← makeToken Token.eof none 0 s.index (s.index - 1) sc.line sc.column
  modify fun sc => { sc with token := some t }
  return t

def report (line column : Int) (message : String) : ScanM Unit :=
  modify fun sc =>
    if sc.reporting then { sc with messages := sc.messages.push s!"line {line}:{column} {message}" } else sc

/-- Reports that no rule reads the text from the start of the token up to here. -/
def reportUnread : ScanM Unit := do
  let sc ← get
  let s ← stream
  let text := escapeBreaks (s.textBetween sc.tokenStart.index s.index)
  report sc.tokenStart.line sc.tokenStart.column s!"token recognition error at: '{text}'"

/-- Reads pieces until one ends a token; false if the token is to be skipped. -/
def readToken : Nat → ScanM Bool
  | 0 => throw .exhausted
  | fuel + 1 => do
    modify fun sc => { sc with type := 0 }
    let found ← readPiece (← get).mode
    let type ← match found with
      | some type => pure type
      | none => do
        reportUnread
        if (← stream).peek 1 ≠ -1 then passOne
        pure skipType
    if (← stream).peek 1 = -1 then modify fun sc => { sc with hitEof := true }
    modify fun sc => if sc.type = 0 then { sc with type } else sc
    let type := (← get).type
    if type = skipType then return false
    else if type ≠ moreType then return true
    else readToken fuel

def scanToken : Nat → ScanM Token
  | 0 => throw .exhausted
  | fuel + 1 => do
    if (← get).hitEof then emitEof
    else
      let s ← stream
      modify fun sc =>
        { sc with
          token := none
          channel := 0
          tokenStart := ⟨s.index, sc.line, sc.column⟩
          text := none }
      if ← readToken (s.size - s.index).toNat.succ.succ then
        match (← get).token with
        | some t => return t
        | none => emit
      else scanToken fuel

def nextToken : ScanM Token := do
  match (← get).input with
  | none => throw (.illegalState "nextToken requires a non-null input stream.")
  | some s => scanToken ((s.size - s.index).toNat + 3)

def collect : Nat → Array Token → ScanM (Array Token)
  | 0, _ => throw .exhausted
  | fuel + 1, ts => do
    let t ← nextToken
    if t.type = Token.eof then return ts else collect fuel (ts.push t)

def allTokens : ScanM (Array Token) := do
  match (← get).input with
  | none => throw (.illegalState "nextToken requires a non-null input stream.")
  | some s => collect ((s.size - s.index).toNat + 3) #[]

def everyToken : ScanM (Array Token) := do
  let tokens ← allTokens
  return tokens.push (← nextToken)

def reset : ScanM Unit :=
  modify fun sc =>
    { sc with
      input := sc.input.map (·.seek 0)
      token := none
      type := 0
      channel := 0
      tokenStart := ⟨-1, -1, -1⟩
      text := none
      hitEof := false
      mode := 0
      modes := []
      line := 1
      column := 0
      matchStart := -1
      matchMode := 0 }

def setInput (input : Option CharStream) : ScanM Unit := do
  modify fun sc => { sc with input := none }
  reset
  modify fun sc => { sc with input }

end Scanner

end MiniC
