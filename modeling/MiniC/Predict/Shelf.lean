import MiniC.Predict.Merge

/-!
# Stacks that are told apart

A `Shelf` keeps stacks in the order they were made. Each has an identity: no stack has 0, the bottom has 1 wherever it
comes from, and what comes out of a merge is one of the two stacks if it is equal to it. Forks are only equal if they
are the same.
-/

namespace MiniC

structure Shelved where
  id : Nat
  stack : Stack
  deriving Inhabited

/-- Stacks in the order they were made, and a memo of stacks that are stored once. -/
structure Shelf where
  items : Array Shelved := #[]
  memo : Stack.Memo := []
  deriving Inhabited

abbrev ShelfM := ExceptT Fault (StateM Shelf)

namespace Shelved

def none : Shelved := ⟨0, .unknown⟩

def render (a : Shelved) : Except Fault String := if a.id = 0 then pure "None" else a.stack.render

/-- How many ways out there are, whether the stack is empty or may be, where the ways lead and what lies below. -/
def facts (a : Shelved) : Except Fault (Nat × Bool × Bool × List Int × List Stack) :=
  let s := a.stack
  if a.id = 0 then throw .unsuitable
  else pure (s.branches.length, s.isEmpty, s.hasEmptyPath, s.branches.map (·.2), s.branches.map (·.1))

def compare (a b : Shelved) : Except Fault (Bool × Bool) :=
  if a.id = b.id then pure (true, true) else return (← a.stack.same? b.stack, false)

/-- Stacks of which equal ones became the same, each with whether it is one of the others. -/
def combine (as : List Shelved) : Except Fault (List (Stack × List Bool)) :=
  if as.any (·.stack.isFork) then throw .unsuitable
  else pure (as.map fun a => (a.stack, as.map (·.stack == a.stack)))

def count (a : Shelved) : Except Fault Nat :=
  if a.id = 0 then pure 0 else throw (if a.stack.isFork then .unsuitable else .missing)

end Shelved

namespace Shelf

def item (i : Option Int) : ShelfM Shelved := do
  match i with
  | some i => ExceptT.mk (pure (entryAt (← get).items i))
  | none => pure .none

def keep (r : Except Fault Stack) (known : List Shelved) : ShelfM Stack := do
  let s ← ExceptT.mk (pure r)
  modify fun shelf =>
    let id := ((known ++ [Shelved.mk 1 .empty]).find? (·.stack == s)).elim (shelf.items.size + 2) (·.id)
    { shelf with items := shelf.items.push ⟨id, s⟩ }
  return s

def bottom : ShelfM Stack := keep (pure .empty) []

def call (below : Shelved) (returnState : Int) : ShelfM Stack := keep (below.stack.call? returnState) []

def fork (below : List Shelved) (returnStates : List Int) : ShelfM Stack :=
  keep (Stack.fork? (below.map (·.stack)) returnStates) []

def merge (a b : Shelved) (wild : Bool) (table : Option Bool) : ShelfM Stack :=
  keep (if a.id = b.id then pure a.stack else do
    let _ ← a.stack.same? b.stack
    Stack.merge wild (table == some true) a.stack b.stack) [a, b]

def intern (a : Shelved) : ShelfM Stack := do
  let memo ← ExceptT.mk (pure ((← get).memo.intern a.stack))
  modify fun shelf => { shelf with memo }
  keep (pure a.stack) [a]

/-- Stores a stack in the memo. The answer is the stack, how many there are and whether it can be found. -/
def memoize (a : Shelved) : ShelfM (Stack × Nat × Bool) := do
  let memo ← ExceptT.mk (pure ((← get).memo.insert a.stack))
  modify fun shelf => { shelf with memo }
  return (a.stack, memo.length, memo.holds a.stack)

end Shelf

end MiniC
