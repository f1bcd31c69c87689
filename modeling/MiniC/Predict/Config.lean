import MiniC.Predict.Guard
import MiniC.Predict.Stack
import Std.Data.HashMap

/-!
# Places of a prediction

A `Config` is one place in a network that a prediction may have come to: a state, the alternative that
leads there, the open calls and the conditions passed. A `ConfigSet` keeps such places in order of
discovery and without repetition; two that differ only in how far they left the rule of the decision are
the same.
-/

namespace MiniC

structure Config where
  state : Nat
  alt : Int
  stack : Stack
  guard : Guard := .always
  /-- How often the rule of the decision was left on the way. -/
  up : Int := 0
  /-- The place is not dropped in favour of one of the first alternative. -/
  suppressed : Bool := false
  deriving Repr, Inhabited

namespace Config

def same (a b : Config) : Bool :=
  a.state == b.state && a.alt == b.alt && a.suppressed == b.suppressed && a.guard == b.guard &&
    a.stack == b.stack

/-- Places that are the same have the same key. -/
def key (c : Config) : UInt64 := hash (c.state, c.alt, c.stack)

def render (c : Config) : Except Fault String := do
  let stack ← match c.stack with
    | .unknown => pure ""
    | s => do pure (",[" ++ (← s.render) ++ "]")
  let guard := if c.guard.isAlways then "" else "," ++ c.guard.render
  let up := if c.up > 0 then ",up=" ++ toString c.up else ""
  return s!"({c.state},{c.alt}{stack}{guard}{up})"

end Config

structure ConfigSet where
  /-- The calls below the decision are known. -/
  fullCtx : Bool
  configs : Array Config := #[]
  lookup : Std.HashMap UInt64 (List Nat) := {}
  readonly : Bool := false
  uniqueAlt : Int := 0
  conflictingAlts : Option (List Int) := none
  conditional : Bool := false
  /-- Some place lies outside of the rule of the decision. -/
  dips : Bool := false
  deriving Inhabited

def sortedDistinct (xs : List Int) : List Int :=
  (xs.foldl (fun acc x => if acc.contains x then acc else x :: acc) []).mergeSort (· ≤ ·)

namespace ConfigSet

def empty (fullCtx : Bool) : ConfigSet := { fullCtx }

def size (s : ConfigSet) : Nat := s.configs.size

def find? (s : ConfigSet) (c : Config) : Option Nat :=
  ((s.lookup[c.key]?).getD []).find? fun i =>
    match s.configs[i]? with
    | some d => d.same c
    | none => false

/-- Adds a place unless it is there; the one that is there keeps the greater distance. -/
def add (s : ConfigSet) (c : Config) : Except Fault ConfigSet := do
  if s.readonly then throw (.illegal "This set is readonly")
  if c.stack.isFork then throw .unsuitable
  let s := if c.guard.isAlways then s else { s with conditional := true }
  let s := if c.up > 0 then { s with dips := true } else s
  match s.find? c with
  | some i => return { s with configs := s.configs.modify i fun d => { d with up := max d.up c.up } }
  | none =>
    let i := s.configs.size
    return { s with
      configs := s.configs.push c
      lookup := s.lookup.alter c.key fun is => some (i :: is.getD []) }

def addAll (s : ConfigSet) (cs : List Config) : Except Fault ConfigSet := cs.foldlM add s

def addAgain (s : ConfigSet) (c : Config) : Except Fault ConfigSet :=
  if s.readonly then throw (.illegal "This set is readonly") else pure { s with configs := s.configs.push c }

/-- The set as it is from here on: places can neither be added nor looked up. -/
def freeze (s : ConfigSet) : ConfigSet := { s with readonly := true, lookup := {} }

/-- Removes all places. What was noted about them stays. -/
def clear (s : ConfigSet) : Except Fault ConfigSet :=
  if s.readonly then throw (.illegalState "This set is readonly")
  else pure { s with configs := #[], lookup := {} }

def contains (s : ConfigSet) (c : Config) : Except Fault Bool :=
  if s.readonly then throw (.unsupported "This method is not implemented for readonly sets.")
  else pure (s.find? c).isSome

/-- Stores equal stacks once. There has to be a table of stacks unless the set is empty. -/
def shareStacks (s : ConfigSet) : Except Fault ConfigSet :=
  if s.readonly then throw (.illegalState "This set is readonly")
  else if s.configs.isEmpty then pure s
  else throw .missing

def states (s : ConfigSet) : List Int := sortedDistinct (s.configs.toList.map fun c => Int.ofNat c.state)

def guards (s : ConfigSet) : List Guard := (s.configs.toList.map (·.guard)).filter fun g => !(g == .always)

def sameConfigs (a b : Array Config) : Bool :=
  a.size == b.size && (List.range a.size).all fun i =>
    match a[i]?, b[i]? with
    | some c, some d => c.same d
    | _, _ => false

def same (a b : ConfigSet) : Bool :=
  a.fullCtx == b.fullCtx && a.uniqueAlt == b.uniqueAlt && a.conflictingAlts == b.conflictingAlts &&
    a.conditional == b.conditional && a.dips == b.dips && sameConfigs a.configs b.configs

def onlyAlt (s : ConfigSet) : Int :=
  match s.configs[0]? with
  | none => 0
  | some c => if s.configs.all fun d => d.alt == c.alt then c.alt else 0

def alts (s : ConfigSet) : List Int := sortedDistinct (s.configs.toList.map (·.alt))

def conflictingOrOnly (s : ConfigSet) : Option (List Int) :=
  if s.uniqueAlt ≠ 0 then some [s.uniqueAlt] else s.conflictingAlts

def anyAtStop (net : Network) (s : ConfigSet) : Bool := s.configs.any fun c => net.isRuleStop c.state

def allAtStop (net : Network) (s : ConfigSet) : Bool := s.configs.all fun c => net.isRuleStop c.state

def renderAlts (alts : List Int) : String :=
  if alts.isEmpty then "set()" else "\x7b" ++ ", ".intercalate (alts.map toString) ++ "\x7d"

def render (s : ConfigSet) : Except Fault String := do
  let cs ← s.configs.toList.mapM Config.render
  let conditional := if s.conditional then ",hasSemanticContext=True" else ""
  let unique := if s.uniqueAlt ≠ 0 then ",uniqueAlt=" ++ toString s.uniqueAlt else ""
  let conflict := match s.conflictingAlts with
    | some alts => ",conflictingAlts=" ++ renderAlts alts
    | none => ""
  let dips := if s.dips then ",dipsIntoOuterContext" else ""
  return "[" ++ ", ".intercalate cs ++ "]" ++ conditional ++ unique ++ conflict ++ dips

end ConfigSet

end MiniC
