import MiniC.Fault

/-!
# Positions in sequences

A position may be counted from the end: -1 is the last entry. `entryAt` fails where there is no entry,
`cut` takes what there is between two positions.
-/

namespace MiniC

/-- The position in a sequence of some length, counted from the end if it is negative. -/
def placeAt (size : Nat) (i : Int) : Option Nat :=
  let j := if 0 ≤ i then i else i + Int.ofNat size
  if 0 ≤ j ∧ j < Int.ofNat size then some j.toNat else none

/-- The entry of a table at a position, counted from the end if it is negative. -/
def entryAt? {α : Type} (xs : Array α) (i : Int) : Option α := do
  let k ← placeAt xs.size i
  xs[k]?

/-- The entry of a table at a position, counted from the end if it is negative. -/
def entryAt {α : Type} (xs : Array α) (i : Int) : Except Fault α :=
  match entryAt? xs i with
  | some a => pure a
  | none => throw .outOfRange

/-- The table with another entry at a position, counted from the end if it is negative. -/
def setAt {α : Type} (xs : Array α) (i : Int) (a : α) : Except Fault (Array α) :=
  match placeAt xs.size i with
  | some k => pure (xs.setIfInBounds k a)
  | none => throw .outOfRange

/-- A bound of a cut in a sequence of some length: counted from the end if negative, then held inside. -/
def boundAt (size : Nat) (i : Int) : Nat :=
  let j := if 0 ≤ i then i else i + Int.ofNat size
  min j.toNat size

/-- The entries from one bound up to, and without, another. -/
def cut {α : Type} (xs : Array α) (first stop : Int) : Array α :=
  xs.extract (boundAt xs.size first) (boundAt xs.size stop)

end MiniC
