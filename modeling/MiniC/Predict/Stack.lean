import MiniC.Network.Basic

/-!
# Call stacks during prediction

A prediction follows the calls of rules without parsing them. `Stack` records where each open call will
return to. `empty` is the bottom below which nothing is known to the network, `unknown` the bottom below
which nothing was asked; `fork` is a stack with two tops. `merge` joins two stacks that reach the same
state.
-/

namespace MiniC

inductive Stack where
  | unknown
  | empty
  | call (parent : Stack) (returnState : Int)
  | fork (left : Stack) (leftReturn : Int) (right : Stack) (rightReturn : Int)
  deriving DecidableEq, Hashable, Repr, Inhabited

namespace Stack

def emptyReturn : Int := 0x7FFFFFFF

/-- A call on top of a stack. A return to the bottom without a caller is the bottom itself. -/
def push (parent : Stack) (returnState : Int) : Stack :=
  if returnState = emptyReturn ∧ parent = unknown then empty else call parent returnState

def branches : Stack → List (Stack × Int)
  | unknown => []
  | empty => [(unknown, emptyReturn)]
  | call p r => [(p, r)]
  | fork p r q s => [(p, r), (q, s)]

/-- The stack has a top of more than one, and so no key in tables. -/
def isFork : Stack → Bool
  | fork .. => true
  | _ => false

/-- Nothing is open. A fork counts as empty if it first returns to the bottom. -/
def isEmpty : Stack → Bool
  | empty => true
  | fork _ r _ _ => r == emptyReturn
  | _ => false

def hasEmptyPath (s : Stack) : Bool :=
  match s.branches.getLast? with
  | some (_, r) => r == emptyReturn
  | none => false

def depth : Stack → Nat
  | unknown | empty => 0
  | call p _ => p.depth + 1
  | fork p _ q _ => max p.depth q.depth + 1

/-- The written form, innermost call first. A fork has one only if it returns to the bottom. -/
def render : Stack → Except Fault String
  | unknown => pure ""
  | empty => pure "$"
  | call p r => do
    let up ← p.render
    let top := toString r
    if up.isEmpty then return if r = emptyReturn then "$" else top
    else return top ++ " " ++ up
  | fork _ r _ _ => if r = emptyReturn then pure "[]" else throw .unsuitable

end Stack

end MiniC
