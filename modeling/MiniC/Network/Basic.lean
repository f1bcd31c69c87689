import MiniC.Interval

/-!
# Transition networks

A grammar is given as a network of states with edges between them. Each rule of the grammar has a start
and a stop state; an edge either reads a symbol, calls a rule, tests a condition, runs an action or is
free. States with more than one way out are decisions and carry a number.
-/

namespace MiniC

inductive StateKind where
  | basic
  | ruleStart
  | blockStart
  | plusBlockStart
  | starBlockStart
  | tokenStart
  | ruleStop
  | blockEnd
  | starLoopBack
  | starLoopEntry
  | plusLoopBack
  | loopEnd
  deriving DecidableEq, Repr, Inhabited

namespace StateKind

/-- The kinds in the order of their codes, from 1 on. -/
def all : Array StateKind :=
  #[basic, ruleStart, blockStart, plusBlockStart, starBlockStart, tokenStart, ruleStop, blockEnd,
    starLoopBack, starLoopEntry, plusLoopBack, loopEnd]

def name : StateKind → String
  | basic => "BASIC"
  | ruleStart => "RULE_START"
  | blockStart => "BLOCK_START"
  | plusBlockStart => "PLUS_BLOCK_START"
  | starBlockStart => "STAR_BLOCK_START"
  | tokenStart => "TOKEN_START"
  | ruleStop => "RULE_STOP"
  | blockEnd => "BLOCK_END"
  | starLoopBack => "STAR_LOOP_BACK"
  | starLoopEntry => "STAR_LOOP_ENTRY"
  | plusLoopBack => "PLUS_LOOP_BACK"
  | loopEnd => "LOOP_END"

def isBlockStart : StateKind → Bool
  | blockStart | plusBlockStart | starBlockStart => true
  | _ => false

def isDecision : StateKind → Bool
  | blockStart | plusBlockStart | starBlockStart | plusLoopBack | starLoopEntry | tokenStart => true
  | _ => false

end StateKind

inductive Edge where
  /-- Free. `outermostReturn` names the rule whose outermost call returns this way, or is -1. -/
  | epsilon (target : Nat) (outermostReturn : Int)
  | range (target : Nat) (first last : Int)
  /-- Calls the rule that starts at `target` and goes on at `follow`. -/
  | rule (target : Nat) (ruleIndex precedence : Int) (follow : Nat)
  | predicate (target : Nat) (ruleIndex predIndex : Int) (contextual : Bool)
  | atom (target : Nat) (symbol : Int)
  | action (target : Nat) (ruleIndex actionIndex : Int) (contextual : Bool)
  | set (target : Nat) (symbols : IntervalSet)
  | notSet (target : Nat) (symbols : IntervalSet)
  | wildcard (target : Nat)
  | precedence (target : Nat) (level : Int)
  deriving DecidableEq, Repr, Inhabited

namespace Edge

def target : Edge → Nat
  | epsilon t _ | range t _ _ | rule t _ _ _ | predicate t _ _ _ | atom t _ | action t _ _ _
  | set t _ | notSet t _ | wildcard t | precedence t _ => t

def retarget (e : Edge) (n : Nat) : Edge :=
  match e with
  | epsilon _ r => epsilon n r
  | range _ a b => range n a b
  | rule _ r p f => rule n r p f
  | predicate _ r p c => predicate n r p c
  | atom _ s => atom n s
  | action _ r a c => action n r a c
  | set _ s => set n s
  | notSet _ s => notSet n s
  | wildcard _ => wildcard n
  | precedence _ l => precedence n l

def isFree : Edge → Bool
  | epsilon .. | rule .. | predicate .. | action .. | precedence .. => true
  | _ => false

def isAction : Edge → Bool
  | action .. => true
  | _ => false

def outermostReturn : Edge → Int
  | epsilon _ r => r
  | _ => -1

def name : Edge → String
  | epsilon .. => "EPSILON"
  | range .. => "RANGE"
  | rule .. => "RULE"
  | predicate .. => "PREDICATE"
  | atom .. => "ATOM"
  | action .. => "ACTION"
  | set .. => "SET"
  | notSet .. => "NOT_SET"
  | wildcard .. => "WILDCARD"
  | precedence .. => "PRECEDENCE"

def label? : Edge → Option IntervalSet
  | range _ a b => some (IntervalSet.empty.insert ⟨a, b + 1⟩)
  | atom _ s => some (IntervalSet.empty.insertOne s)
  | set _ s | notSet _ s => some s
  | _ => none

/-- The edge reads the symbol, if the vocabulary goes from `least` to `greatest`. -/
def reads (e : Edge) (symbol least greatest : Int) : Bool :=
  match e with
  | range _ a b => a ≤ symbol && symbol ≤ b
  | atom _ s => s == symbol
  | set _ s => s.contains symbol
  | notSet _ s => least ≤ symbol && symbol ≤ greatest && !s.contains symbol
  | wildcard _ => least ≤ symbol && symbol ≤ greatest
  | _ => false

/-- The written form; calls, actions and levels have none. -/
def render : Edge → Except Fault String
  | epsilon .. => pure "epsilon"
  | atom _ s => pure (toString s)
  | range _ a b => pure s!"'{Char.ofNat a.toNat}'..'{Char.ofNat b.toNat}'"
  | set .. => pure "<set>"
  | notSet .. => pure "~<set>"
  | wildcard _ => pure "."
  | predicate _ r p _ => pure s!"pred_{r}:{p}"
  | rule .. | action .. | precedence .. => throw .unsuitable

end Edge

/-- A state of a network, with what links it to the states that belong to the same construct. -/
structure NetState where
  kind : StateKind
  rule : Int
  freeOnly : Bool := false
  edges : Array Edge := #[]
  decision : Int := -1
  nonGreedy : Bool := false
  /-- The state starts a rule that calls itself on its left; `none` where nothing is said about it. -/
  leftRecursive : Option Bool := none
  /-- The loop of a left-recursive rule is decided here. -/
  precedenceDecision : Bool := false
  loopBack : Option Nat := none
  blockEnd : Option Nat := none
  blockStart : Option Nat := none
  ruleStop : Option Nat := none
  deriving Inhabited, Repr

namespace NetState

def ofKind (kind : StateKind) (rule : Int) : NetState where
  kind
  rule
  leftRecursive := if kind = .ruleStart then some false else none

def freeWith (s : NetState) (e : Edge) : Bool :=
  if s.edges.isEmpty then e.isFree
  else if s.freeOnly != e.isFree then false
  else s.freeOnly

def addEdge (s : NetState) (e : Edge) : NetState :=
  { s with freeOnly := s.freeWith e, edges := s.edges.push e }

def insertEdge (s : NetState) (e : Edge) (position : Int) : NetState :=
  if position = -1 then s.addEdge e
  else
    let n : Int := s.edges.size
    let place := if position < 0 then max 0 (n + position) else min n position
    { s with
      freeOnly := s.freeWith e
      edges := (s.edges.toList.insertIdx place.toNat e).toArray }

end NetState

/-- What a lexer does besides making a token. -/
inductive LexerAction where
  | channel (channel : Int)
  | custom (rule action : Int)
  | mode (mode : Int)
  | more
  | popMode
  | pushMode (mode : Int)
  | skip
  | type (type : Int)
  /-- A custom action that is run as if the lexer stood at an offset from the start of the token. -/
  | indexed (offset : Int) (action : LexerAction)
  deriving DecidableEq, Repr, Inhabited

namespace LexerAction

/-- The kind of an action; one that is tied to an offset is of the kind of the action itself. -/
def kindName : LexerAction → String
  | channel _ => "CHANNEL"
  | custom .. => "CUSTOM"
  | mode _ => "MODE"
  | more => "MORE"
  | popMode => "POP_MODE"
  | pushMode _ => "PUSH_MODE"
  | skip => "SKIP"
  | type _ => "TYPE"
  | indexed _ a => a.kindName

/-- How a grammar writes an action; a lexer's own actions have no such form. -/
def render : LexerAction → String
  | channel c => s!"channel({c})"
  | mode m => s!"mode({m})"
  | more => "more"
  | popMode => "popMode"
  | pushMode m => s!"pushMode({m})"
  | skip => "skip"
  | type t => s!"type({t})"
  | custom .. | indexed .. => ""

end LexerAction

inductive NetworkKind where
  | lexer
  | parser
  deriving DecidableEq, Repr, Inhabited

/-- A network. A state number without a state is `none`. -/
structure Network where
  kind : NetworkKind := .parser
  maxTokenType : Int := 0
  states : Array (Option NetState) := #[]
  decisions : Array Nat := #[]
  ruleStart : Array Nat := #[]
  ruleStop : Array Nat := #[]
  ruleTokenType : Option (Array Int) := none
  actions : Option (Array LexerAction) := none
  modeStart : Array Nat := #[]
  deriving Inhabited

namespace Network

/-- The state of a number; where there is none, a state without edges. -/
def state (net : Network) (n : Nat) : NetState :=
  match net.states[n]? with
  | some (some s) => s
  | _ => default

def kindOf (net : Network) (n : Nat) : StateKind := (net.state n).kind

def isRuleStop (net : Network) (n : Nat) : Bool := net.kindOf n = .ruleStop

def census (net : Network) : List (String × Nat) :=
  (StateKind.all.toList.map fun k => (k.name, net.states.toList.countP fun s => s.any (·.kind = k))).filter
    (·.2 ≠ 0)

def removeState (net : Network) (n : Nat) : Network := { net with states := net.states.setIfInBounds n none }

def insertEdge (net : Network) (n : Nat) (e : Edge) (position : Int) : Network :=
  { net with states := net.states.modify n (·.map (·.insertEdge e position)) }

/-- The state of a number, counted from the end if it is negative. -/
def stateAt (net : Network) (n : Int) : Except Fault (Nat × NetState) := do
  match ← entryAt net.states n with
  | some s => pure ((placeAt net.states.size n).getD 0, s)
  | none => throw .missing

/-- The state at which a caller goes on, if the state of that number calls a rule. -/
def followOf (net : Network) (n : Int) : Except Fault Nat := do
  let found ← net.stateAt n
  let first : Option Edge := found.2.edges[0]?
  match first with
  | some (.rule _ _ _ follow) => pure follow
  | some _ => throw .missing
  | none => throw .outOfRange

end Network

end MiniC
