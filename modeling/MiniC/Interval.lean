import MiniC.Place

/-!
# Sets of integers as lists of ranges

A `Range` is half open. An `IntervalSet` keeps its ranges in a list; `none` means that nothing was ever
added, which is told apart from a list that became empty again. `insert` keeps the list sorted and joins
ranges that touch, `erase` removes one number, `eraseRange` a range, `complement` what is missing in a
range. Membership, `size`, `get` and `toList` read the list from left to right.
-/

namespace MiniC

/-- The integers from `start` up to, and without, `stop`. -/
structure Range where
  start : Int
  stop : Int
  deriving DecidableEq, Repr, Inhabited

namespace Range

def single (v : Int) : Range := ⟨v, v + 1⟩

def contains (r : Range) (v : Int) : Bool := r.start ≤ v && v < r.stop

def size (r : Range) : Nat := (r.stop - r.start).toNat

def toList (r : Range) : List Int := (List.range r.size).map fun k => r.start + Int.ofNat k

end Range

/-- A set of integers, as ranges in the order in which they are kept. -/
structure IntervalSet where
  ranges : Option (List Range)
  deriving DecidableEq, Repr, Inhabited

namespace IntervalSet

def empty : IntervalSet := ⟨none⟩

def list (s : IntervalSet) : List Range := s.ranges.getD []

def contains (s : IntervalSet) (v : Int) : Bool := s.list.any (·.contains v)

def toList (s : IntervalSet) : List Int := s.list.flatMap Range.toList

/-- Joins a range with those after it that it covers or touches. -/
def absorb (l : Range) : List Range → List Range
  | [] => [l]
  | r :: rest =>
    if l.stop ≥ r.stop then absorb l rest
    else if l.stop ≥ r.start then ⟨l.start, r.stop⟩ :: rest
    else l :: r :: rest

def insertInto (v : Range) : List Range → List Range
  | [] => [v]
  | i :: rest =>
    if v.stop < i.start then v :: i :: rest
    else if v.stop = i.start then ⟨v.start, i.stop⟩ :: rest
    else if v.start ≤ i.stop then absorb ⟨min i.start v.start, max i.stop v.stop⟩ rest
    else i :: insertInto v rest

def insert (s : IntervalSet) (v : Range) : IntervalSet :=
  ⟨some (match s.ranges with
    | none => [v]
    | some rs => insertInto v rs)⟩

def insertOne (s : IntervalSet) (v : Int) : IntervalSet := s.insert (.single v)

def union (s t : IntervalSet) : IntervalSet := t.list.foldl insert s

def ofList (rs : List Range) : IntervalSet := rs.foldl insert empty

/-- Adds to a set its own ranges: the list is read while it changes. -/
def unionSelf (s : IntervalSet) : IntervalSet :=
  let rec go : Nat → Nat → IntervalSet → IntervalSet
    | 0, _, s => s
    | fuel + 1, p, s =>
      match s.list[p]? with
      | none => s
      | some r => go fuel (p + 1) (s.insert r)
  go s.list.length 0 s

/-- Removes a number from a list; a number inside of a range cannot be removed. -/
def eraseFrom (v : Int) : List Range → Except Fault (List Range)
  | [] => pure []
  | i :: rest =>
    if v < i.start then pure (i :: rest)
    else if v = i.start ∧ v = i.stop - 1 then pure rest
    else if v = i.start then pure (⟨i.start + 1, i.stop⟩ :: rest)
    else if v = i.stop - 1 then pure (⟨i.start, i.stop - 1⟩ :: rest)
    else if v < i.stop - 1 then throw .missing
    else return i :: (← eraseFrom v rest)

/-- Removes one number. Only an end of a range can be removed. -/
def erase (s : IntervalSet) (v : Int) : Except Fault IntervalSet :=
  match s.ranges with
  | none => pure s
  | some rs => return ⟨some (← eraseFrom v rs)⟩

/-- The pass of `eraseRange`: `p` reads the list, `k` is where it is changed. A range that is dropped
moves the rest up, so the one after it is read but not changed by its own bounds. -/
def eraseRangeFrom (v : Range) : Nat → Nat → Nat → List Range → List Range
  | 0, _, _, rs => rs
  | fuel + 1, p, k, rs =>
    match rs[p]? with
    | none => rs
    | some i =>
      if v.stop ≤ i.start then rs
      else if v.start > i.start ∧ v.stop < i.stop then
        (rs.set k ⟨i.start, v.start⟩).insertIdx k ⟨v.stop, i.stop⟩
      else if v.start ≤ i.start ∧ v.stop ≥ i.stop then
        eraseRangeFrom v fuel (p + 1) k (rs.eraseIdx k)
      else if v.start < i.stop then
        eraseRangeFrom v fuel (p + 1) (k + 1) (rs.set k ⟨i.start, v.start⟩)
      else if v.stop < i.stop then
        eraseRangeFrom v fuel (p + 1) (k + 1) (rs.set k ⟨v.stop, i.stop⟩)
      else eraseRangeFrom v fuel (p + 1) (k + 1) rs

/-- Removes a range in one pass over the list. -/
def eraseRange (s : IntervalSet) (v : Range) : Except Fault IntervalSet :=
  if v.start = v.stop - 1 then s.erase v.start
  else
    match s.ranges with
    | none => pure s
    | some rs => pure ⟨some (eraseRangeFrom v (rs.length + 1) 0 0 rs)⟩

/-- What is missing between two numbers, both included. -/
def complement (s : IntervalSet) (first last : Int) : Except Fault IntervalSet :=
  match s.ranges with
  | none => throw .unsuitable
  | some rs => rs.foldlM eraseRange (empty.insert ⟨first, last + 1⟩)

/-- How many numbers the ranges hold; a set to which nothing was added has no size. -/
def size (s : IntervalSet) : Except Fault Nat :=
  match s.ranges with
  | none => throw .unsuitable
  | some rs => pure (rs.foldl (fun n r => n + r.size) 0)

def get (s : IntervalSet) (i : Int) : Int :=
  if i < 0 then 0 else (s.toList[i.toNat]?).getD 0

end IntervalSet

/-- The names of symbols: what stands in the grammar as it is, and what has a name. -/
structure Vocabulary where
  literal : Array String
  symbolic : Array String
  deriving Inhabited

namespace Vocabulary

def element (v : Vocabulary) (a : Int) : Except Fault String :=
  if a = -1 then pure "<EOF>"
  else if a = -2 then pure "<EPSILON>"
  else if a < v.literal.size then entryAt v.literal a
  else if a < v.symbolic.size then entryAt v.symbolic a
  else pure "<UNKNOWN>"

end Vocabulary

/-- The written form of a set of symbols: braces stand around two or more. -/
def IntervalSet.render (s : IntervalSet) (v : Vocabulary) : Except Fault String :=
  match s.ranges with
  | none => pure "\x7b\x7d"
  | some _ => do
    let names ← s.toList.mapM v.element
    let body := ", ".intercalate names
    return if (← s.size) > 1 then "\x7b" ++ body ++ "\x7d" else body

end MiniC
