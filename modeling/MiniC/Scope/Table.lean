import MiniC.Syntax.Position
import MiniC.Text.Quoted

/-!
# Symbol tables

Scopes form a tree; scopes and symbols are named by their numbers, in the order in which they were made. The
table is first filled, which makes a scope each time one is opened, and then replayed: opening a scope again
goes to the next scope that was made at that place.

A variable has an address in the frame of the nearest function around it, or among the globals. The texts of
string literals are kept among the globals as well.
-/

namespace MiniC

structure ObjectSymbol where
  name : Option String
  node : Nat
  position : Position
  /-- Declared by a declarator, and not as a parameter. -/
  byDeclarator : Bool
  type : CType
  address : Option Int := none
  /-- 0 before the declaration, 1 inside of it, 2 after it. -/
  seen : Nat := 0
  deriving DecidableEq, Repr, Inhabited

structure FunctionSymbol where
  name : Option String
  node : Nat
  position : Position
  form : FunctionForm
  type : CType
  params : Option (List CType)
  isLibrary : Bool := false
  depth : Int := 0
  /-- Set if a declarator of the same name was read. -/
  seen : Option Nat := none
  deriving DecidableEq, Repr, Inhabited

inductive Symbol where
  | object (s : ObjectSymbol)
  | function (s : FunctionSymbol)
  deriving DecidableEq, Repr, Inhabited

namespace Symbol

def name : Symbol → Option String
  | object s => s.name
  | function s => s.name

def type : Symbol → CType
  | object s => s.type
  | function s => s.type

def address : Symbol → Option Int
  | object s => s.address
  | function _ => none

def isDefined : Symbol → Bool
  | object _ => false
  | function s => s.form.isDefinition

/-- A lookup that asks for a stage of declaration finds a variable only from that stage on. -/
def isVisible (needed : Nat) : Symbol → Bool
  | object s => needed ≤ s.seen
  | function _ => true

def setSeen (n : Nat) : Symbol → Symbol
  | object s => object { s with seen := n }
  | function s => function { s with seen := some n }

/-- The stage of declaration; a function has none of its own. -/
def seen : Symbol → Except Fault Nat
  | object s => pure s.seen
  | function s =>
    match s.seen with
    | some n => pure n
    | none => throw .missing

end Symbol

structure Scope where
  name : Option String := none
  isFunction : Bool := false
  /-- The scopes around it, innermost first. -/
  above : List Nat := []
  /-- The number of cells in use, in the root and in the scope of a function. -/
  cells : Int := 0
  /-- The variables that have their addresses here. -/
  addressed : Array Nat := #[]
  children : Array Nat := #[]
  /-- The child that is opened next in a replay. -/
  next : Nat := 0
  symbols : Array (Option String × Nat) := #[]
  deriving Inhabited, Repr

structure SymbolTable where
  scopes : Array Scope := #[{}]
  symbols : Array Symbol := #[]
  /-- The scope that is open; none if more were closed than opened. -/
  current : Option Nat := some 0
  replaying : Bool := false
  depth : Int := 0
  functionDepth : Int := 1
  /-- The string literals by their texts. -/
  strings : Array (List Nat × Nat) := #[]
  /-- What was said about scopes that do not fit in a replay. -/
  notices : Array String := #[]
  deriving Inhabited, Repr

/-- Operations on a table; what was done before a fault stays done. -/
abbrev TableM := ExceptT Fault (StateM SymbolTable)

namespace SymbolTable

def scope (t : SymbolTable) (s : Nat) : Scope := (t.scopes[s]?).getD {}

def symbol (t : SymbolTable) (s : Nat) : Symbol := (t.symbols[s]?).getD default

def modifyScope (t : SymbolTable) (s : Nat) (f : Scope → Scope) : SymbolTable :=
  { t with scopes := t.scopes.modify s f }

def modifySymbol (t : SymbolTable) (s : Nat) (f : Symbol → Symbol) : SymbolTable :=
  { t with symbols := t.symbols.modify s f }

/-- The open scope and those around it, innermost first. -/
def chain (t : SymbolTable) : List Nat :=
  match t.current with
  | some s => s :: (t.scope s).above
  | none => []

/-- The scope that holds the addresses of a scope: the nearest one of a function, or the root. -/
def frameOf (t : SymbolTable) (s : Nat) : Nat :=
  ((s :: (t.scope s).above).find? fun s => (t.scope s).isFunction || (t.scope s).above.isEmpty).getD 0

def cellsOf (t : SymbolTable) (s : Nat) : Int := (t.scope (t.frameOf s)).cells

/-! ## Listing -/

def margin (level : Nat) : String := String.join (List.replicate level "    ")

def symbolLine (t : SymbolTable) (level : Nat) (entry : Option String × Nat) : String :=
  let symbol := t.symbol entry.2
  let address := match symbol.address with
    | some a => " | " ++ toString a
    | none => ""
  margin level ++ entry.1.getD "None" ++ ": " ++ symbol.type.render ++ address ++ "\n"

def scopeListing (t : SymbolTable) : Nat → Nat → Nat → String
  | 0, _, _ => ""
  | fuel + 1, level, s =>
    let scope := t.scope s
    let name := match scope.name with
      | some name => " " ++ name
      | none => ""
    let bases := scope.addressed.toList.map fun v => Quoted.text (t.symbol v).type.base.name
    let frame := if scope.isFunction then
        margin (level + 1) ++ "[" ++ String.intercalate ", " bases ++ "]\n"
      else ""
    margin level ++ "Scope" ++ name ++ ":\n" ++ frame
      ++ String.join (scope.symbols.toList.map (t.symbolLine (level + 1)))
      ++ String.join (scope.children.toList.map (t.scopeListing fuel (level + 1)))

def listing (t : SymbolTable) : String := t.scopeListing t.scopes.size 0 0

/-! ## Scopes -/

def currentScope : TableM Nat := do
  let t ← get
  match t.current with
  | some s => pure s
  | none => throw .missing

def makeScope (isFunction : Bool) (name : Option String) : TableM Unit := do
  let s ← currentScope
  modify fun t =>
    let new : Scope := { name, isFunction, above := s :: (t.scope s).above }
    let n := t.scopes.size
    let t := t.modifyScope s fun scope => { scope with children := scope.children.push n }
    { t with scopes := t.scopes.push new, current := some n }

def forgetSeen (t : SymbolTable) (s : Nat) : SymbolTable :=
  (t.scope s).symbols.foldl (fun t (_, v) => t.modifySymbol v fun symbol =>
    match symbol with
    | .object o => .object { o with seen := 0 }
    | other => other) t

/-- Goes to the next scope that was made inside the open one. -/
def replayScope (name : Option String) : TableM Unit := do
  let s ← currentScope
  let t ← get
  let scope := t.scope s
  match scope.children[scope.next]? with
  | none =>
    throw (.illegal ("Trying to open nonexisting scope; current scope:\n"
      ++ t.scopeListing t.scopes.size 0 s ++ "am at child " ++ toString scope.next))
  | some child =>
    let expected := (t.scope child).name
    let notices :=
      if expected == name then t.notices
      else t.notices.push ("Warning: Symbol table open scope traverse: expected " ++ expected.getD "None"
        ++ ", got " ++ name.getD "None")
    let t := t.modifyScope s fun scope => { scope with next := scope.next + 1 }
    let t := t.modifyScope child fun scope => { scope with next := 0 }
    set { t.forgetSeen child with current := some child, notices }

def openScope (isFunction : Bool) (name : Option String) : TableM Unit := do
  modify fun t => { t with depth := t.depth + 1 }
  if isFunction then modify fun t => { t with functionDepth := t.functionDepth + 1 }
  let t ← get
  if t.replaying then replayScope name else makeScope isFunction name

def closeScope : TableM Unit := do
  modify fun t => { t with depth := t.depth - 1 }
  let s ← currentScope
  modify fun t =>
    let scope := t.scope s
    { t with
      functionDepth := if scope.isFunction then t.functionDepth - 1 else t.functionDepth
      current := scope.above.head? }

def reset (t : SymbolTable) : SymbolTable :=
  { t.modifyScope 0 fun scope => { scope with next := 0 } with current := some 0 }

def startReplay (t : SymbolTable) : SymbolTable := { t with replaying := true }.reset

def stopReplay (t : SymbolTable) : SymbolTable := { t with replaying := false }

/-! ## Symbols -/

def addSymbol (s : Symbol) : TableM Nat := do
  let t ← get
  set { t with symbols := t.symbols.push s }
  return t.symbols.size

def assignAddress (frame v : Nat) (listed : Bool) : TableM Unit := do
  let t ← get
  let address := (t.scope frame).cells
  let t := t.modifySymbol v fun symbol =>
    match symbol with
    | .object o => .object { o with address := some address }
    | other => other
  let t := if listed then t.modifyScope frame fun s => { s with addressed := s.addressed.push v } else t
  set t
  let size ← liftExcept (t.symbol v).type.size
  modify fun t => t.modifyScope frame fun s => { s with cells := s.cells + size }
where
  liftExcept {α : Type} (e : Except Fault α) : TableM α := ExceptT.mk (pure e)

/-- Enters a name in a scope: a new one at the end, a known one in its place. -/
def enterName (entries : Array (Option String × Nat)) (name : Option String) (v : Nat) :
    Array (Option String × Nat) :=
  match entries.findIdx? fun e => e.1 == name with
  | some i => entries.setIfInBounds i (name, v)
  | none => entries.push (name, v)

/-- Puts a symbol into the open scope. A variable gets an address. -/
def insert (symbol : Symbol) : TableM Nat := do
  let s ← currentScope
  let v ← addSymbol symbol
  match symbol with
  | .object _ =>
    let t ← get
    assignAddress (t.frameOf s) v true
  | .function _ => pure ()
  modify fun t => t.modifyScope s fun scope => { scope with symbols := enterName scope.symbols symbol.name v }
  return v

def insertObject (o : ObjectSymbol) : TableM Nat := insert (.object o)

def insertFunction (f : FunctionSymbol) : TableM Nat := do
  let t ← get
  insert (.function { f with depth := t.functionDepth })

/-- The symbol of a name in a scope, if it is visible at a stage of declaration. -/
def lookupIn (t : SymbolTable) (s : Nat) (name : Option String) (needed : Nat) : Option Nat :=
  if name.isNone then none
  else
    match (t.scope s).symbols.find? fun e => e.1 == name with
    | some (_, v) => if (t.symbol v).isVisible needed then some v else none
    | none => none

def lookup (t : SymbolTable) (name : Option String) (needed : Nat) : Option Nat :=
  t.chain.findSome? fun s => t.lookupIn s name needed

/-- The number of functions between the open scope and the scope that holds a symbol. -/
def levelOf (t : SymbolTable) (v : Nat) : Option Int :=
  go 0 t.chain
where
  go (level : Int) : List Nat → Option Int
    | [] => none
    | s :: rest =>
      let scope := t.scope s
      if scope.symbols.any fun e => e.2 == v then some level
      else go (if scope.isFunction then level + 1 else level) rest

/-! ## Insertion rules -/

/-- Whether a symbol may be put into a scope. -/
inductive Verdict where
  | accept
  /-- It changes nothing and may be left out. -/
  | ignore
  /-- No rule says anything. -/
  | undecided
  /-- It may not; the message is about the new symbol. -/
  | refuse (message : String)
  /-- It may not; the message is about the symbol that is there, with its node and position. -/
  | blame (message : String) (node : Nat) (position : Position)
  deriving DecidableEq, Repr

def sameParams : Option (List CType) → Option (List CType) → Except Fault Bool
  | none, none => pure true
  | some ts, some us => if ts.length = us.length then go ts us else pure false
  | _, _ => throw .missing
where
  go : List CType → List CType → Except Fault Bool
    | t :: ts, u :: us => do
      if ← t.agrees u then go ts us else return false
    | _, _ => pure true

def functionVerdict (old new : FunctionSymbol) : Except Fault Verdict := do
  match new.form.isDefinition, old.form with
  | true, .declaration =>
    if ← sameParams old.params new.params then return .accept
    return .refuse "function definition parameters don't match with previous declaration"
  | true, _ => return .refuse ("redefinition of function '" ++ new.name.getD "None" ++ "'")
  | false, .definition =>
    if !(← old.type.agrees new.type) then
      return .refuse ("conflicting types for function declaration " ++ new.name.getD "None")
    if ← sameParams old.params new.params then return .ignore
    return .refuse "function declaration parameters don't match previous definition"
  | false, .declaration =>
    if ← sameParams old.params new.params then return .ignore
    return .refuse "function declaration parameters don't match previous declaration"
  | false, .main => return .undecided

def conflict (old new : Symbol) : Except Fault Verdict :=
  match old, new with
  | .object o, _ =>
    if o.byDeclarator then
      pure (.refuse ("identifier '" ++ o.name.getD "None" ++ "' already taken by variable"))
    else
      match new with
      | .object _ =>
        pure (.blame ("identifier '" ++ o.name.getD "None" ++ "' already taken by function") o.node o.position)
      | .function _ => pure .undecided
  | .function f, .function g => functionVerdict f g
  | .function f, .object _ =>
    pure (.blame ("identifier '" ++ f.name.getD "None" ++ "' already taken by function") f.node f.position)

def verdict (new : Symbol) : TableM Verdict := do
  let s ← currentScope
  let t ← get
  match t.lookupIn s new.name 0 with
  | some v => ExceptT.mk (pure (conflict (t.symbol v) new))
  | none => return .accept

/-! ## String literals -/

def findString (t : SymbolTable) (text : List Nat) : Option Nat :=
  (t.strings.find? fun e => e.1 == text).map (·.2)

/-- Keeps the text of a string literal, unless what is written between its quotes is a text already kept. -/
def insertString (raw : String) (codes : List Nat) (node : Nat) (type : CType) : TableM Unit := do
  let t ← get
  match t.findString (raw.toList.map Char.toNat) with
  | some _ => pure ()
  | none =>
    let v ← addSymbol (.object { name := none, node, position := (0, 0), byDeclarator := false, type })
    assignAddress 0 v false
    modify fun t => { t with strings :=
      match t.strings.findIdx? fun e => e.1 == codes with
      | some i => t.strings.setIfInBounds i (codes, v)
      | none => t.strings.push (codes, v) }

def codesLe : List Nat → List Nat → Bool
  | [], _ => true
  | _ :: _, [] => false
  | a :: as, b :: bs => if a = b then codesLe as bs else a < b

def sortedStrings (t : SymbolTable) : List (List Nat × Nat) :=
  t.strings.toList.mergeSort fun a b => codesLe a.1 b.1

end SymbolTable

end MiniC
