import MiniC.Grammar.Basic
import MiniC.Lexeme.TokenStream
import MiniC.Predict.Automaton

/-!
# Parsers

A `Parser` reads a token stream by following the network of a grammar. It keeps the rules that are open
with what was read in them, the operator levels of the left-recursive rules that are open, what is known
about decisions, and whether it is recovering from an error. Listeners are told about rules and tokens as
they come, reporters about errors.
-/

namespace MiniC

structure Frame where
  info : RuleInfo
  children : Array ParseTree := #[]
  first : Option Token := none
  deriving Inhabited

namespace Frame

def toTree (f : Frame) : ParseTree := .node f.info f.children.toList

end Frame

/-- What went wrong where a token did not fit. -/
inductive MistakeKind where
  | mismatch
  | noAlternative (start : Token)
  | refused
  | other
  deriving Inhabited, Repr, DecidableEq

/-- A token that did not fit, with the state of the parser and the states that called the open rules. -/
structure Mistake where
  kind : MistakeKind
  offending : Option Token
  state : Int
  callers : List Int
  message : Option String := none
  deriving Inhabited, Repr

/-- Why parsing does not go on: something is broken, or a token did not fit. -/
inductive Halt where
  | fault (f : Fault)
  | mistake (m : Mistake)
  deriving Inhabited, Repr

/-- The cause, where a mistake that nobody recovers from is one as well. -/
def Halt.toFault : Halt → Fault
  | fault f => f
  | mistake m =>
    match m.kind with
    | .mismatch => .mismatch
    | .noAlternative _ => .noAlternative
    | .refused => .refused (m.message.getD "")
    | .other => .illegal (m.message.getD "")

inductive Listener where
  | trace
  | record
  deriving DecidableEq, Repr, Inhabited

inductive Reporter where
  | console
  /-- Also tells about decisions that needed the callers or stayed ambiguous. -/
  | diagnostic (exactOnly : Bool)
  deriving DecidableEq, Repr, Inhabited

/-- Which parts of the work of predictions are printed. -/
structure Debugging where
  all : Bool := false
  decisions : Bool := false
  nodes : Bool := false
  retries : Bool := false
  deriving Inhabited, Repr, DecidableEq

structure Parser where
  grammar : Grammar
  stream : TokenStream
  frames : List Frame := []
  state : Int := -1
  /-- The operator levels, innermost first. -/
  levels : List Int := [0]
  automata : Array Automaton
  mode : PredictionMode := .ll
  follow : Follow := {}
  recovering : Bool := false
  lastErrorIndex : Int := -1
  lastErrorStates : Option (List Int) := none
  bail : Bool := false
  errors : Nat := 0
  build : Bool := true
  listeners : Option (List Listener) := none
  /-- A tracing listener was made and not given up. -/
  tracing : Bool := false
  reporters : List Reporter := [.console]
  debugging : Debugging := {}
  printed : Array String := #[]
  events : Array String := #[]
  deriving Inhabited

/-- An action of a parser. What was done before it halted stays done. -/
abbrev ParseM := ExceptT Halt (StateM Parser)

namespace Parser

def ofStream (grammar : Grammar) (stream : TokenStream) : Parser where
  grammar
  stream
  automata := Automaton.ofNetwork grammar.net

def fail {α : Type} (f : Fault) : ParseM α := throw (.fault f)

def liftExcept {α : Type} (r : Except Fault α) : ParseM α :=
  match r with
  | .ok a => pure a
  | .error e => fail e

def tokens {α : Type} (m : TokenM α) : ParseM α := do
  let stream := (← get).stream
  modify fun p => { p with stream := default }
  let (r, stream) := (m.run).run stream
  modify fun p => { p with stream }
  liftExcept r

def observe {α : Type} (m : ParseM α) : ParseM (Except Halt α) :=
  ExceptT.mk fun p =>
    let (r, p) := (m.run).run p
    (.ok r, p)

def currentToken : ParseM Token := do
  match ← tokens (TokenStream.look 1) with
  | some t => pure t
  | none => fail .missing

def lookType (k : Int) : ParseM Int := tokens (TokenStream.lookType k)

def streamIndex : ParseM Int := return (← get).stream.index

def seek (i : Int) : ParseM Unit := tokens (TokenStream.seek i)

def setState (s : Int) : ParseM Unit := modify fun p => { p with state := s }

/-- The states that called the open rules, innermost first. -/
def callers (p : Parser) : List Int := p.frames.map (·.info.caller)

/-- The same without the outermost rule, which nobody called. -/
def innerCallers (p : Parser) : List Int := p.callers.dropLast

/-- The operator level in force, -1 if there is none. -/
def level (p : Parser) : Int := p.levels.headD (-1)

def allowsLevel (p : Parser) (l : Int) : Bool :=
  match p.levels with
  | [] => false
  | top :: _ => l ≥ top

def levelEdges (net : Network) : List (Int × Int) :=
  net.states.toList.flatMap fun s =>
    match s with
    | none => []
    | some s => s.edges.toList.filterMap fun
      | .precedence _ l => some (s.rule, l)
      | _ => none

/-- The answer to a condition of the grammar: the conditions are the levels asked for, numbered
throughout. A grammar without any has no objection. -/
def askCondition (p : Parser) (rule index : Int) : Except Fault (Option Bool) :=
  let edges := levelEdges p.grammar.net
  if edges.isEmpty then pure (some true)
  else if !edges.any (·.1 == rule) then throw (.illegal s!"No predicate with index:{rule}")
  else
    pure <| if index < 0 then none
    else
      match edges[index.toNat]? with
      | some (r, l) => if r = rule then some (p.allowsLevel l) else none
      | none => none

def env (p : Parser) (loopRule : Option Int) : Closure.Env where
  net := p.grammar.net
  level := p.allowsLevel
  ask := p.askCondition
  loopRule

def print (line : String) : ParseM Unit := modify fun p => { p with printed := p.printed.push line }

def modifyTop (f : Frame → Frame) : ParseM Unit :=
  modify fun p =>
    match p.frames with
    | [] => p
    | top :: rest => { p with frames := f top :: rest }

def addChild (t : ParseTree) : ParseM Unit := modifyTop fun f => { f with children := f.children.push t }

def addLeaf (t : Token) (bad : Bool) : ParseM Unit := do
  if (← get).frames.isEmpty then fail .missing
  addChild (.leaf t bad)

def ruleNameOf (p : Parser) (rule : Int) : Except Fault String := entryAt p.grammar.ruleNames rule

def announceEnter : ParseM Unit := do
  let some ls := (← get).listeners | return
  let some top := (← get).frames.head? | return
  let name ← liftExcept ((← get).ruleNameOf top.info.rule)
  for l in ls do
    match l with
    | .trace =>
      let next := (← currentToken).text.getD ""
      print s!"enter   {name}, LT(1)={next}"
    | .record => modify fun p => { p with events := p.events.push ("+" ++ name) }

def announceExit : ParseM Unit := do
  let some ls := (← get).listeners | return
  let some top := (← get).frames.head? | return
  let name ← liftExcept ((← get).ruleNameOf top.info.rule)
  for l in ls.reverse do
    match l with
    | .trace =>
      let next := (← currentToken).text.getD ""
      print s!"exit    {name}, LT(1)={next}"
    | .record => modify fun p => { p with events := p.events.push ("-" ++ name) }

def announceToken (t : Token) : ParseM Unit := do
  let some ls := (← get).listeners | return
  let some top := (← get).frames.head? | return
  for l in ls do
    match l with
    | .trace =>
      let name ← liftExcept ((← get).ruleNameOf top.info.rule)
      print s!"consume {t.render} rule {name}"
    | .record => modify fun p => { p with events := p.events.push (t.text.getD "") }

/-- Tells the reporters about an error at a token, by default the current one. -/
def notify (message : String) (offending : Option Token) : ParseM Unit := do
  let t ← match offending with
    | some t => pure t
    | none => currentToken
  modify fun p =>
    let line := s!"line {Token.lineText t.line}:{t.column} {message}"
    let lines := p.reporters.filterMap fun
      | .console => some line
      | .diagnostic _ => none
    { p with errors := p.errors + 1, stream := { p.stream with log := p.stream.log ++ lines.toArray } }

end Parser

end MiniC
