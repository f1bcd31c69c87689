import MiniC.Lexeme.Scanner

/-!
# Streams of tokens

A `TokenStream` reads tokens from a source only when they are asked for, keeps them, and moves among those
of one channel (or among all). A source is a scanner or a list of tokens.
-/

namespace MiniC

/-- A list of tokens as a source. `inputs` gives the text each of them comes from. `located` tells whether
the tokens know where their text ends, which the source needs to place the end of the input. -/
structure ListSource where
  tokens : Array Token
  inputs : Array (Option String)
  located : Bool
  name : Option String := none
  pos : Nat := 0
  eofToken : Option Token := none
  eofInput : Option String := none
  deriving Inhabited

namespace ListSource

def withHidden (tokens : Array Token) (types : List Int) (text : String) : ListSource where
  tokens := tokens.map fun t => if types.contains t.type then { t with channel := Token.hiddenChannel } else t
  inputs := Array.replicate tokens.size (some text)
  located := false

/-- The distance of the end of a text from its last line break. -/
def afterBreak? (text : String) : Option Nat :=
  let tail := text.toList.reverse.takeWhile (· ≠ '\n')
  if tail.length = text.length then none else some tail.length

def column (s : ListSource) : Except Fault Int := do
  match s.tokens[s.pos]?, s.eofToken, s.tokens.back? with
  | some t, _, _ => return t.column
  | none, some e, _ => return e.column
  | none, none, some last =>
    if !s.located then throw .missing
    match last.text.bind afterBreak? with
    | some n => return Int.ofNat n
    | none => return last.column + last.stop - last.start + 1
  | none, none, none => return 0

def line (s : ListSource) : Option Int :=
  match s.tokens[s.pos]?, s.eofToken, s.tokens.back? with
  | some t, _, _ => t.line
  | none, some e, _ => e.line
  | none, none, some last =>
    let breaks := (last.text.getD "").toList.countP (· = '\n')
    last.line.map (· + Int.ofNat breaks)
  | none, none, none => some 1

def input (s : ListSource) : Option String :=
  match s.inputs[s.pos]?, s.eofToken with
  | some i, _ => i
  | none, some _ => s.eofInput
  | none, none => (s.inputs.back?).join

def sourceName (s : ListSource) : Except Fault String :=
  match s.name, s.input with
  | some n, _ => pure n
  | none, some _ => throw .missing
  | none, none => pure "List"

/-- The next token; behind the last one, the end of the input. -/
def next (s : ListSource) : Except Fault (Token × ListSource) := do
  match s.tokens[s.pos]?, s.eofToken with
  | some t, _ => return (t, { s with pos := s.pos + 1 })
  | none, some e => return (e, s)
  | none, none =>
    let start ← match s.tokens.back? with
      | none => pure (-1)
      | some last => if s.located then pure (last.stop + 1) else throw .missing
    let start := if start = 0 then -1 else start
    let column ← s.column
    let e : Token :=
      { type := Token.eof, text := some "EOF", start, stop := max (-1) (start - 1), line := s.line, column }
    return (e, { s with eofToken := some e, eofInput := s.input })

end ListSource

inductive TokenSource where
  | scanner (s : Scanner)
  | list (s : ListSource)
  deriving Inhabited

/-- Tokens read so far, and a position among them; -1 before the first use. -/
structure TokenStream where
  source : TokenSource
  tokens : Array Token := #[]
  index : Int := -1
  fetchedEof : Bool := false
  channel : Option Int := some 0
  log : Array String := #[]
  deriving Inhabited

/-- An action on a token stream. What was done before a fault stays done. -/
abbrev TokenM := ExceptT Fault (StateM TokenStream)

namespace TokenStream

def ofScanner (s : Scanner) (channel : Option Int) : TokenStream := { source := .scanner s, channel }

def ofList (s : ListSource) (channel : Option Int) : TokenStream := { source := .list s, channel }

def scanner? (s : TokenStream) : Option Scanner :=
  match s.source with
  | .scanner sc => some sc
  | .list _ => none

/-- The next token of the source. Messages of a scanner go to the log. -/
def pull : TokenM Token := do
  let s ← get
  match s.source with
  | .scanner sc =>
    set { s with source := .list default }
    let (r, sc) := (Scanner.nextToken.run).run sc
    let messages := sc.messages
    modify fun s => { s with source := .scanner { sc with messages := #[] }, log := s.log ++ messages }
    match r with
    | .ok t => pure t
    | .error e => throw e
  | .list ls =>
    match ls.next with
    | .ok (t, ls) =>
      set { s with source := .list ls }
      pure t
    | .error e => throw e

/-- Reads up to `n` more tokens and answers how many there were. -/
def fetch (n : Nat) : TokenM Nat := do
  if (← get).fetchedEof then return 0
  let rec go : Nat → Nat → TokenM Nat
    | 0, count => pure count
    | n + 1, count => do
      let t ← pull
      modify fun s => { s with tokens := s.tokens.push { t with index := Int.ofNat s.tokens.size } }
      if t.type = Token.eof then
        modify fun s => { s with fetchedEof := true }
        return count + 1
      go n (count + 1)
  go n 0

/-- Makes sure that there is a token at a position; false if the input ends before. -/
def sync (i : Int) : TokenM Bool := do
  let n := i - Int.ofNat (← get).tokens.size + 1
  if n > 0 then return (Int.ofNat (← fetch n.toNat)) ≥ n
  return true

/-- The token read at a position, counted from the end if it is negative. -/
def tokenAt (i : Int) : TokenM Token := do
  match entryAt? (← get).tokens i with
  | some t => pure t
  | none => throw .outOfRange

def fetchAll : Nat → TokenM Unit
  | 0 => throw .exhausted
  | fuel + 1 => do if (← fetch 1000) = 1000 then fetchAll fuel

def bound : TokenM Nat := do
  let s ← get
  match s.source with
  | .scanner sc =>
    let left := match sc.input with
      | some input => (input.size - input.index).toNat
      | none => 0
    return s.tokens.size + left + 3
  | .list ls => return s.tokens.size + ls.tokens.size + 3

/-- The first position from `i` on whose token is on a channel, and -1 if there is none. -/
def nextOnChannel (channel : Int) (i : Int) : TokenM Int := do
  let _ ← sync i
  let size := Int.ofNat (← get).tokens.size
  if i ≥ size then return -1
  let rec go : Nat → Int → TokenM Int
    | 0, _ => throw .exhausted
    | fuel + 1, i => do
      let t ← tokenAt i
      if t.channel = channel then return i
      if t.type = Token.eof then return -1
      let _ ← sync (i + 1)
      go fuel (i + 1)
  go ((← bound) + i.natAbs) i

/-- The last position up to `i` whose token is on a channel, and -1 if there is none. -/
def previousOnChannel (channel : Int) : Nat → Int → TokenM Int
  | 0, _ => throw .exhausted
  | fuel + 1, i => do
    if i < 0 then return i
    let t ← tokenAt i
    if t.channel = channel then return i
    previousOnChannel channel fuel (i - 1)

/-- The position that a move to `i` leads to. -/
def adjust (i : Int) : TokenM Int := do
  match (← get).channel with
  | none => pure i
  | some c => nextOnChannel c i

/-- Reads the first token if nothing was read. -/
def begin : TokenM Unit := do
  if (← get).index = -1 then
    let _ ← sync 0
    let i ← adjust 0
    modify fun s => { s with index := i }

def seek (i : Int) : TokenM Unit := do
  begin
  let i ← adjust i
  modify fun s => { s with index := i }

def reset : TokenM Unit := seek 0

def pick (i : Int) : TokenM Token := do
  begin
  tokenAt i

def lookBack (k : Int) : TokenM (Option Token) := do
  let s ← get
  match s.channel with
  | none => if s.index - k < 0 then return none else return some (← tokenAt (s.index - k))
  | some c =>
    if k = 0 ∨ s.index - k < 0 then return none
    let rec go : Nat → Int → TokenM Int
      | 0, i => pure i
      | n + 1, i => do go n (← previousOnChannel c (i.natAbs + 2) (i - 1))
    let i ← go k.toNat s.index
    if i < 0 then return none else return some (← tokenAt i)

/-- A token near the position: 1 is the next one, -1 the one before, and 0 none. Behind the end there is
only the end. -/
def look (k : Int) : TokenM (Option Token) := do
  begin
  let s ← get
  if k = 0 then return none
  if k < 0 then return ← lookBack (-k)
  match s.channel with
  | none =>
    let i := s.index + k - 1
    let _ ← sync i
    let size := Int.ofNat (← get).tokens.size
    if i ≥ size then return some (← tokenAt (size - 1)) else return some (← tokenAt i)
  | some c =>
    let rec go : Nat → Int → TokenM Int
      | 0, i => pure i
      | n + 1, i => do
        if ← sync (i + 1) then go n (← nextOnChannel c (i + 1)) else go n i
    return some (← tokenAt (← go (k - 1).toNat s.index))

def lookType (k : Int) : TokenM Int := do
  match ← look k with
  | some t => pure t.type
  | none => throw .missing

def consume : TokenM Unit := do
  let s ← get
  let size := Int.ofNat s.tokens.size
  let inside := s.index ≥ 0 ∧ (if s.fetchedEof then s.index < size - 1 else s.index < size)
  if !inside then
    if (← lookType 1) = Token.eof then throw (.illegalState "cannot consume EOF")
  let next := (← get).index + 1
  if ← sync next then
    let i ← adjust next
    modify fun s => { s with index := i }

def fill : TokenM Unit := do
  begin
  fetchAll ((← bound) / 1000 + 2)

/-- The tokens from a position up to, and without, another, up to the end of the input. With `types`, only
those of these types. -/
def tokensBetween (start stop : Int) (types : Option (List Int)) : TokenM (Option (List Token)) := do
  if start < 0 ∨ stop < 0 then return none
  begin
  let tokens := (← get).tokens
  let stop := min stop (Int.ofNat tokens.size - 1)
  let part := (cut tokens start stop).toList.takeWhile (·.type ≠ Token.eof)
  return some (if start < stop then part.filter fun t => types.all (·.contains t.type) else [])

/-- The tokens between two positions, both included, that are on a channel; -1 stands for every channel
but the one of the parser. -/
def filterChannel (left right channel : Int) : TokenM (Option (List Token)) := do
  let rec go : Nat → Int → List Token → TokenM (List Token)
    | 0, _, acc => pure acc.reverse
    | n + 1, i, acc => do
      let t ← tokenAt i
      let keep := if channel = -1 then t.channel ≠ 0 else t.channel = channel
      go n (i + 1) (if keep then t :: acc else acc)
  let hidden ← go (right - left + 1).toNat left []
  return if hidden.isEmpty then none else some hidden

def checkIndex (i : Int) : TokenM Unit := do
  begin
  let size := Int.ofNat (← get).tokens.size
  if i < 0 ∨ i ≥ size then throw (.illegal s!"{i} not in 0..{size - 1}")

/-- The tokens behind a position that a parser does not see. -/
def hiddenRight (i channel : Int) : TokenM (Option (List Token)) := do
  checkIndex i
  let next ← nextOnChannel 0 (i + 1)
  let size := Int.ofNat (← get).tokens.size
  let last := if next = -1 then size - 1 else next
  filterChannel (i + 1) last channel

/-- The tokens before a position that a parser does not see. -/
def hiddenLeft (i channel : Int) : TokenM (Option (List Token)) := do
  checkIndex i
  let previous ← previousOnChannel 0 (i.natAbs + 2) (i - 1)
  if previous = i - 1 then return none
  filterChannel (previous + 1) (i - 1) channel

/-- The texts of the tokens between two positions, both included, up to the end of the input. -/
def textBetween (start stop : Option Int) : TokenM String := do
  begin
  fill
  let tokens := (← get).tokens
  match start, stop with
  | some a, some b =>
    if a < 0 ∨ b < 0 then return ""
    let b := min b (Int.ofNat tokens.size - 1)
    if b < a then return ""
    let part := (cut tokens a (b + 1)).toList.takeWhile (·.type ≠ Token.eof)
    return String.join (part.map fun t => t.text.getD "")
  | _, _ => return ""

def allText : TokenM String := do
  begin
  fill
  let size := (← get).tokens.size
  textBetween (some 0) (some (Int.ofNat size - 1))

def countOnChannel : TokenM Nat := do
  fill
  let s ← get
  match s.channel with
  | none => throw .missing
  | some c => return s.tokens.toList.countP (·.channel = c)

end TokenStream

end MiniC
