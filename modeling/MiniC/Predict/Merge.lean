import MiniC.Predict.Stack

/-!
# Joining call stacks

Stacks that reach the same state can be joined into one. Only stacks with one top are joined, so the result has at
most two; a fork has no key and cannot be put below a call or into a table. `Memo` keeps stacks so that equal ones
are stored once.
-/

namespace MiniC.Stack

def call? (parent : Stack) (returnState : Int) : Except Fault Stack :=
  if parent.isFork then throw .unsuitable else pure (push parent returnState)

def fork? (parents : List Stack) (returnStates : List Int) : Except Fault Stack :=
  match parents with
  | [p, q] =>
    if p ≠ unknown ∧ (p.isFork ∨ q.isFork) then throw .unsuitable
    else
      match returnStates with
      | [r, s] => pure (fork p r q s)
      | _ => throw .malformed
  | _ => throw .malformed

/-- Equality. Forks cannot be compared with each other. -/
def same? (a b : Stack) : Except Fault Bool :=
  if a.isFork && b.isFork then throw .unsuitable else pure (a == b)

def isSingle : Stack → Bool
  | empty | call .. => true
  | _ => false

/-- The joint stack. With `wild` the bottom stands for every stack. With a `table` of earlier results, which
answers with the second stack whatever is asked, nothing is worked out. -/
def merge (wild table : Bool) (a b : Stack) : Except Fault Stack := do
  if a = b then return a
  match a, b with
  | fork .., fork .. => throw .unsuitable
  | empty, b =>
    if table ∧ b.isSingle then return b
    if wild then return empty
    match b with
    | call p r => return fork p r unknown emptyReturn
    | _ => throw .malformed
  | call p r, empty =>
    if table ∨ wild then return empty else return fork p r unknown emptyReturn
  | call p r, call q s =>
    if table then return call q s
    if r = s then
      let parent ← merge wild table p q
      if parent = p then return call p r
      if parent = q then return call q s
      call? parent r
    else if r < s then return fork p r q s
    else return fork q s p r
  | call .., _ => throw .malformed
  | _, empty => if wild then return empty else throw .malformed
  | _, call .. => throw .malformed
  | unknown, b => if table then return b else throw .missing
  | fork .., _ => if table then throw .unsuitable else throw .missing

abbrev Memo := List Stack

namespace Memo

/-- Stores a stack. The bottom is never stored. -/
def insert (m : Memo) (s : Stack) : Except Fault Memo :=
  match s with
  | empty => pure m
  | fork .. => throw .unsuitable
  | s => pure (if m.contains s then m else m ++ [s])

def holds (m : Memo) (s : Stack) : Bool := s != unknown && m.contains s

def intern (m : Memo) : Stack → Except Fault Memo
  | unknown => throw .missing
  | empty => pure m
  | fork _ r _ _ => if r = emptyReturn then pure m else throw .unsuitable
  | call p r =>
    if m.contains (call p r) then pure m
    else do (← intern m p).insert (call p r)

end Memo

end MiniC.Stack
