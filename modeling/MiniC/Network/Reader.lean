import MiniC.Network.Basic

/-!
# Reading a network

A network is stored as a list of numbers: a version, an identifier, then states, rules, modes, sets,
edges, decisions and actions, each list with its length in front. Every number but the first is stored
two higher than it is. `Network.read` reads such a list; a list that breaks a rule of the format leads to
the fault of the first rule that it breaks. `Network.check` tests that the states belong together, and
`Network.addBypasses` gives every rule a second way through that reads one token standing for the rule.
-/

namespace MiniC

structure ReadOptions where
  check : Bool := true
  bypass : Bool := false

namespace Network

def formatVersion : Int := 3

def formatId : String := "aadb8d7e-aeef-4415-ad2b-8204d6cf042e"

abbrev Read := StateT (List Int) (Except Fault)

namespace Read

def int : Read Int := do
  match ← get with
  | [] => throw .outOfRange
  | n :: rest => set rest; pure n

/-- Runs a reader as often as the next number says. -/
def many {α : Type} (item : Read α) : Read (List α) := do
  let n ← int
  let rec go : Nat → Read (List α)
    | 0 => pure []
    | k + 1 => do
      let a ← item
      return a :: (← go k)
  go n.toNat

/-- A number, where 65535 stands for -1. -/
def signed : Read Int := do
  let n ← int
  return if n = 0xFFFF then -1 else n

end Read

/-- The numbers of a stored text: all but the first are stored two higher, and what is too low for
that reads as -1. -/
def unshift : List Nat → Except Fault (List Int)
  | [] => throw .outOfRange
  | first :: rest =>
    pure (Int.ofNat first :: rest.map fun v => if v > 1 then Int.ofNat v - 2 else -1)

/-- The identifier that eight numbers make up, each meant to fill 16 bits, lowest first. -/
def identifier (words : List Int) : Except Fault String := do
  let wide : Int → BitVec 256 := BitVec.ofInt 256
  let pair (k : Nat) : BitVec 256 := wide (words.getD k 0) ||| (wide (words.getD (k + 1) 0) <<< 16)
  let mask32 : BitVec 256 := wide 0xFFFFFFFF
  let quad (k : Nat) : BitVec 256 := (pair k &&& mask32) ||| (pair (k + 2) <<< 32)
  let value := ((quad 0 &&& wide 0xFFFFFFFFFFFFFFFF) ||| (quad 4 <<< 64)).toInt
  if value < 0 ∨ value ≥ Int.pow 2 128 then throw .malformed
  let digits := Nat.toDigits 16 value.toNat
  let digits := List.replicate (32 - digits.length) '0' ++ digits
  let part (from' count : Nat) := String.ofList ((digits.drop from').take count)
  return "-".intercalate [part 0 8, part 8 4, part 12 4, part 16 4, part 20 12]

def readHeader : Read Unit := do
  let version ← Read.int
  if version ≠ formatVersion then
    throw (.illegal ("Could not deserialize ATN with version " ++ toString version ++
      " (expected " ++ toString formatVersion ++ ")."))
  let words ← (List.range 8).mapM fun _ => Read.int
  let id ← identifier words
  if id ≠ formatId then
    throw (.illegal ("Could not deserialize ATN with UUID: " ++ id ++ " (expected " ++ formatId ++
      " or a legacy UUID)."))

inductive Link where
  | loopBack (state : Nat) (goal : Int)
  | blockEnd (state : Nat) (goal : Int)

def readState (number : Nat) : Read (Option NetState × List Link) := do
  let code ← Read.int
  if code = 0 then return (none, [])
  let rule ← Read.signed
  if code > 13 then
    throw (.illegal ("The specified state type " ++ toString code ++ " is not valid."))
  if code = 13 then throw .outOfRange
  let kind ← entryAt StateKind.all (if code < 0 then code else code - 1)
  let s := NetState.ofKind kind rule
  if code = 12 then return (some s, [.loopBack number (← Read.int)])
  else if kind.isBlockStart then return (some s, [.blockEnd number (← Read.int)])
  else return (some s, [])

def modifyState (net : Network) (n : Nat) (f : NetState → NetState) : Network :=
  { net with states := net.states.modify n (·.map f) }

/-- The state number behind an index, or `none` if no state stands there. -/
def numberOf (net : Network) (n : Int) : Except Fault (Option Nat) := do
  match ← entryAt net.states n with
  | some _ => pure (placeAt net.states.size n)
  | none => pure none

def readMarks (net : Network) (mark : NetState → NetState) : Read Network := do
  let n ← Read.int
  (List.range n.toNat).foldlM (fun net _ => do
    let i ← Read.int
    match ← net.numberOf i with
    | some k => pure (net.modifyState k mark)
    | none => throw .missing) net

def readStates (net : Network) : Read Network := do
  let n ← Read.int
  let (states, links) ← (List.range n.toNat).foldlM (fun (acc : Array (Option NetState) × List Link) k => do
    let (s, ls) ← readState k
    return (acc.1.push s, acc.2 ++ ls)) (#[], [])
  let net := { net with states }
  let net ← links.foldlM (fun (net : Network) link =>
    match link with
    | .loopBack k goal => return net.modifyState k ({ · with loopBack := ← net.numberOf goal })
    | .blockEnd _ _ => pure net) net
  let net ← links.foldlM (fun (net : Network) link =>
    match link with
    | .loopBack _ _ => pure net
    | .blockEnd k goal => return net.modifyState k ({ · with blockEnd := ← net.numberOf goal })) net
  let net ← net.readMarks ({ · with nonGreedy := true })
  net.readMarks ({ · with leftRecursive := some true })

/-- Reads the rules. The second result holds, by rule, the stop state, where there is one. -/
def readRules (net : Network) : Read (Network × Array (Option Nat) × Array (Option Nat)) := do
  let n := (← Read.int).toNat
  let (starts, types) ← (List.range n).foldlM (fun (acc : Array (Option Nat) × Array Int) _ => do
    let start ← net.numberOf (← Read.int)
    let type ← if net.kind = .lexer then Read.signed else pure 0
    return (acc.1.push start, acc.2.push type)) (#[], #[])
  let net := { net with ruleTokenType := if net.kind = .lexer then some types else none }
  let (net, stops) ← (List.range net.states.size).foldlM
    (fun (acc : Network × Array (Option Nat)) k => do
      let (net, stops) := acc
      match net.states[k]? with
      | some (some s) =>
        if s.kind = .ruleStop then
          let stops ← setAt stops s.rule (some k)
          match ← entryAt starts s.rule with
          | some start => pure (net.modifyState start ({ · with ruleStop := some k }), stops)
          | none => throw .missing
        else pure acc
      | _ => pure acc) (net, Array.replicate n none)
  return (net, starts, stops)

def readModes (net : Network) : Read Network := do
  let starts ← Read.many (do net.numberOf (← Read.int))
  return { net with modeStart := (starts.map (·.getD net.states.size)).toArray }

def readSets : Read (Array IntervalSet) := do
  let sets ← Read.many do
    let count ← Read.int
    let withEof ← Read.int
    let start := if withEof ≠ 0 then IntervalSet.empty.insertOne (-1) else IntervalSet.empty
    (List.range count.toNat).foldlM (fun (s : IntervalSet) _ => do
      let first ← Read.int
      let last ← Read.int
      return s.insert ⟨first, last + 1⟩) start
  return sets.toArray

def noTarget : Fault := .illegal "target cannot be null."

/-- An edge of a stored code. The last component is the follow state of a call, if it leads nowhere. -/
def edgeOf (net : Network) (sets : Array IntervalSet) (code goal a b c : Int) :
    Except Fault (Edge × Bool) := do
  let target ← net.numberOf goal
  if code > 11 then
    throw (.illegal ("The specified transition type: " ++ toString code ++ " is not valid."))
  if code = 11 then throw .outOfRange
  if code = 0 then throw .unsuitable
  let needed : Except Fault Nat :=
    match target with
    | some t => pure t
    | none => throw noTarget
  let code := if code < 0 then code + 11 else code
  match code with
  | 1 => return (.epsilon (← needed) (-1), false)
  | 2 => return (.range (← needed) (if c ≠ 0 then -1 else a) b, false)
  | 3 =>
    match ← net.numberOf a with
    | some start => return (.rule start b c (target.getD net.states.size), target.isNone)
    | none => throw noTarget
  | 4 => return (.predicate (← needed) a b (c ≠ 0), false)
  | 5 => return (.atom (← needed) (if c ≠ 0 then -1 else a), false)
  | 6 => return (.action (← needed) a b (c ≠ 0), false)
  | 7 => do let s ← entryAt sets a; return (.set (← needed) s, false)
  | 8 => do let s ← entryAt sets a; return (.notSet (← needed) s, false)
  | 9 => return (.wildcard (← needed), false)
  | _ => return (.precedence (← needed) a, false)

def readEdges (net : Network) (sets : Array IntervalSet) : Read (Network × List (Nat × Nat)) := do
  let n ← Read.int
  (List.range n.toNat).foldlM (fun (acc : Network × List (Nat × Nat)) _ => do
    let (net, open') := acc
    let source ← Read.int
    let goal ← Read.int
    let code ← Read.int
    let a ← Read.int
    let b ← Read.int
    let c ← Read.int
    let (edge, dangling) ← net.edgeOf sets code goal a b c
    match ← net.numberOf source with
    | none => throw .missing
    | some k =>
      let place := (net.state k).edges.size
      pure (net.modifyState k (·.addEdge edge), if dangling then (k, place) :: open' else open')) (net, [])

def ruleState (table : Array (Option Nat)) (rule : Int) : Except Fault Nat := do
  match ← entryAt table rule with
  | some k => pure k
  | none => throw .missing

/-- Whether the rule that a state belongs to calls itself on its left. -/
def isLeftRecursive (net : Network) (starts : Array (Option Nat)) (rule : Int) : Except Fault Bool := do
  let start ← ruleState starts rule
  match (net.state start).leftRecursive with
  | some b => pure b
  | none => throw .missing

/-- Adds, for each call of a rule, the way back from its stop state to where the caller goes on. -/
def addReturns (net : Network) (starts stops : Array (Option Nat)) (dangling : List (Nat × Nat)) :
    Except Fault Network :=
  (List.range net.states.size).foldlM (fun (net : Network) k => do
    match net.states[k]? with
    | some (some s) =>
      (List.range s.edges.size).foldlM (fun (net : Network) i => do
        match (net.state k).edges[i]? with
        | some (Edge.rule target _ precedence follow) =>
          let rule := (net.state target).rule
          let outermost := if (← net.isLeftRecursive starts rule) && precedence = 0 then rule else -1
          if dangling.contains (k, i) then throw noTarget
          let stop ← ruleState stops rule
          return net.modifyState stop (·.addEdge (.epsilon follow outermost))
        | _ => pure net) net
    | _ => throw .missing) net

/-- Links block ends to block starts and loop starts to the states that lead back to them. -/
def linkBlocks (net : Network) : Except Fault Network :=
  (List.range net.states.size).foldlM (fun (net : Network) k => do
    match net.states[k]? with
    | some (some s) =>
      let net ←
        if s.kind.isBlockStart then
          match s.blockEnd with
          | none => throw (.illegal "IllegalState")
          | some e =>
            if net.kindOf e ≠ .blockEnd then throw .missing
            else if (net.state e).blockStart.isSome then throw (.illegal "IllegalState")
            else pure (net.modifyState e ({ · with blockStart := some k }))
        else pure net
      let link (wanted : StateKind) : Network :=
        s.edges.foldl (fun (net : Network) e =>
          if net.kindOf e.target = wanted then
            net.modifyState e.target ({ · with loopBack := some k })
          else net) net
      if s.kind = .plusLoopBack then pure (link .plusBlockStart)
      else if s.kind = .starLoopBack then pure (link .starLoopEntry)
      else pure net
    | _ => pure net) net

def readDecisions (net : Network) : Read Network := do
  let n ← Read.int
  (List.range n.toNat).foldlM (fun (net : Network) i => do
    match ← net.numberOf (← Read.int) with
    | none => throw .missing
    | some k =>
      let net := net.modifyState k ({ · with decision := Int.ofNat i })
      pure { net with decisions := net.decisions.push k }) net

def actionOf (code a b : Int) : Except Fault LexerAction := do
  if code > 8 then
    throw (.illegal ("The specified lexer action type " ++ toString code ++ " is not valid."))
  if code = 8 then throw .outOfRange
  let code := if code < 0 then code + 8 else code
  match code with
  | 0 => return .channel a
  | 1 => return .custom a b
  | 2 => return .mode a
  | 3 => return .more
  | 4 => return .popMode
  | 5 => return .pushMode a
  | 6 => return .skip
  | _ => return .type a

def readActions (net : Network) : Read Network := do
  if net.kind = .lexer then
    let actions ← Read.many do
      let code ← Read.int
      let a ← Read.signed
      let b ← Read.signed
      actionOf code a b
    return { net with actions := some actions.toArray }
  else return net

/-- The loop of a left-recursive rule: its last edge leads to a loop end that leads out of the rule. -/
def endsLeftRecursion (net : Network) (s : NetState) : Except Fault Bool := do
  match s.edges.back? with
  | none => throw .outOfRange
  | some e =>
    let last := net.state e.target
    if last.kind ≠ .loopEnd then return false
    else if last.freeOnly then
      match last.edges[0]? with
      | some out => return net.isRuleStop out.target
      | none => throw .outOfRange
    else return false

/-- Marks the decisions at which left-recursive rules loop. -/
def markPrecedence (net : Network) (starts : Array (Option Nat)) : Except Fault Network :=
  (List.range net.states.size).foldlM (fun (net : Network) k => do
    match net.states[k]? with
    | some (some s) =>
      if s.kind ≠ .starLoopEntry then pure net
      else if ← net.isLeftRecursive starts s.rule then
        if ← net.endsLeftRecursion s then
          pure (net.modifyState k ({ · with precedenceDecision := true }))
        else pure net
      else pure net
    | _ => pure net) net

def require (condition : Bool) : Except Fault Unit :=
  if condition then pure () else throw (.illegal "IllegalState")

def checkState (net : Network) (s : NetState) : Except Fault Unit := do
  require (s.freeOnly || s.edges.size ≤ 1)
  if s.kind = .plusBlockStart then require s.loopBack.isSome
  if s.kind = .starLoopEntry then
    require s.loopBack.isSome
    require (s.edges.size == 2)
    let first := net.kindOf ((s.edges[0]?.map Edge.target).getD 0)
    let second := net.kindOf ((s.edges[1]?.map Edge.target).getD 0)
    if first = .starBlockStart then
      require (second = .loopEnd)
      require (!s.nonGreedy)
    else if first = .loopEnd then
      require (second = .starBlockStart)
      require s.nonGreedy
    else throw (.illegal "IllegalState")
  if s.kind = .starLoopBack then
    require (s.edges.size == 1)
    require (net.kindOf ((s.edges[0]?.map Edge.target).getD 0) = .starLoopEntry)
  if s.kind = .loopEnd then require s.loopBack.isSome
  if s.kind = .ruleStart then require s.ruleStop.isSome
  if s.kind.isBlockStart then require s.blockEnd.isSome
  if s.kind = .blockEnd then require s.blockStart.isSome
  if s.kind.isDecision then require (s.edges.size ≤ 1 || s.decision ≥ 0)
  else require (s.edges.size ≤ 1 || s.kind = .ruleStop)

def check (net : Network) : Except Fault Unit :=
  net.states.forM fun s =>
    match s with
    | some s => net.checkState s
    | none => pure ()

def addState (net : Network) (s : NetState) : Network × Nat :=
  ({ net with states := net.states.push (some s) }, net.states.size)

/-- The loop that ends the part of a left-recursive rule in front of its recursion. -/
def prefixEnd? (net : Network) (rule : Int) : Except Fault (Option Nat) :=
  (List.range net.states.size).foldlM (fun (found : Option Nat) k => do
    if found.isSome then return found
    match net.states[k]? with
    | some (some s) =>
      if s.rule = rule ∧ s.kind = .starLoopEntry then
        return if ← net.endsLeftRecursion s then some k else none
      else return none
    | _ => throw .missing) none

/-- Gives one rule a way around it. The ways into the rule are moved one at a time from the same place,
so a rule that has any cannot be given one. -/
def addBypass (net : Network) (starts stops : Array (Option Nat)) (rule : Nat) (tokenType : Int) :
    Except Fault Network := do
  let (net, first) := net.addState { NetState.ofKind .blockStart rule with }
  let (net, last) := net.addState (NetState.ofKind .blockEnd rule)
  let net := net.modifyState first ({ · with blockEnd := some last, decision := Int.ofNat net.decisions.size })
  let net := { net with decisions := net.decisions.push first }
  let net := net.modifyState last ({ · with blockStart := some first })
  let start ← ruleState starts rule
  let (finish, excluded) ←
    if ← net.isLeftRecursive starts rule then
      match ← net.prefixEnd? rule with
      | none =>
        throw (.illegal "Couldn't identify final state of the precedence rule prefix section.")
      | some k =>
        match (net.state k).loopBack with
        | none => throw .missing
        | some back =>
          if (net.state back).edges.isEmpty then throw .outOfRange
          pure (some k, some (back, 0))
    else
      match ← entryAt stops rule with
      | some k => pure (some k, none)
      | none => pure (none, none)
  let net ← (List.range net.states.size).foldlM (fun (net : Network) k => do
    match net.states[k]? with
    | some (some s) =>
      let edges := s.edges.mapIdx fun i e =>
        if excluded = some (k, i) then e
        else if some e.target = finish then e.retarget last
        else e
      pure (net.modifyState k ({ · with edges }))
    | _ => throw .missing) net
  if !(net.state start).edges.isEmpty then throw .outOfRange
  let net := net.modifyState start (·.addEdge (.epsilon first (-1)))
  match finish with
  | none => throw .missing
  | some finish =>
    let net := net.modifyState last (·.addEdge (.epsilon finish (-1)))
    let (net, reader) := net.addState (NetState.ofKind .basic 0)
    let net := net.modifyState reader (·.addEdge (.atom last tokenType))
    pure (net.modifyState first (·.addEdge (.epsilon reader (-1))))

def addBypasses (net : Network) (starts stops : Array (Option Nat)) : Except Fault Network := do
  let types := (Array.range starts.size).map fun i => net.maxTokenType + Int.ofNat i + 1
  (List.range starts.size).foldlM (fun (net : Network) i =>
    net.addBypass starts stops i ((types[i]?).getD 0)) { net with ruleTokenType := some types }

def readBody (options : ReadOptions) : Read Network := do
  let kind ← match ← Read.int with
    | 0 => pure NetworkKind.lexer
    | 1 => pure NetworkKind.parser
    | _ => throw .unknownKey
  let maxTokenType ← Read.int
  let net : Network := { kind, maxTokenType }
  let net ← net.readStates
  let (net, starts, stops) ← net.readRules
  let net ← net.readModes
  let sets ← readSets
  let (net, dangling) ← net.readEdges sets
  let net ← net.addReturns starts stops dangling
  let net ← net.linkBlocks
  let net ← net.readDecisions
  let net ← net.readActions
  let net ← net.markPrecedence starts
  let net := { net with
    ruleStart := starts.map (·.getD net.states.size)
    ruleStop := stops.map (·.getD net.states.size) }
  if options.check then net.check
  if options.bypass ∧ net.kind = .parser then
    let net ← net.addBypasses starts stops
    if options.check then net.check
    return net
  return net

def read (options : ReadOptions) (stored : List Nat) : Except Fault Network := do
  let numbers ← unshift stored
  let (net, _) ← (do readHeader; readBody options : Read Network).run numbers
  return net

def patch (stored : Array Nat) (changes : List (Int × Nat)) : Except Fault (Array Nat) :=
  changes.foldlM (fun stored change => setAt stored change.1 change.2) stored

end Network

end MiniC
