import MiniC.Predict.Config

/-!
# Conflicts between alternatives

Places with the same state and the same open calls will go on in the same way, so if they belong to
several alternatives these are in conflict. `altSubsets` lists the alternatives of each such group.
-/

namespace MiniC

/-- How much work a prediction does: without the callers, with them if needed, or until an ambiguity is
exact. -/
inductive PredictionMode where
  | sll
  | ll
  | exact
  deriving DecidableEq, Repr, Inhabited

namespace ConfigSet

/-- The alternatives of each group of places with the same state and calls, groups in order of their
first place. -/
def altSubsets (s : ConfigSet) : Except Fault (List (List Int)) := do
  let step : Std.HashMap (Nat × Stack) Nat × Array (List Int) → Config →
      Except Fault (Std.HashMap (Nat × Stack) Nat × Array (List Int)) := fun (known, groups) c => do
    if c.stack.isFork then throw .unsuitable
    match known[(c.state, c.stack)]? with
    | some g =>
      return (known, groups.modify g fun alts => if alts.contains c.alt then alts else c.alt :: alts)
    | none => return (known.insert (c.state, c.stack) groups.size, groups.push [c.alt])
  let (_, groups) ← s.configs.foldlM step ({}, #[])
  return groups.toList.map sortedDistinct

def hasStateOfOneAlt (s : ConfigSet) : Bool :=
  let known : Std.HashMap Nat (List Int) := s.configs.foldl (fun m c =>
    let alts := (m[c.state]?).getD []
    if alts.contains c.alt then m else m.insert c.state (c.alt :: alts)) {}
  known.fold (fun found _ alts => found || alts.length == 1) false

end ConfigSet

namespace AltSets

def anyConflict (sets : List (List Int)) : Bool := sets.any fun alts => alts.length > 1

def anySingle (sets : List (List Int)) : Bool := sets.any fun alts => alts.length == 1

def allConflict (sets : List (List Int)) : Bool := !anySingle sets

def allEqual : List (List Int) → Bool
  | [] => true
  | first :: rest => rest.all (· == first)

def alts (sets : List (List Int)) : List Int := sortedDistinct sets.flatten

def onlyAlt (sets : List (List Int)) : Except Fault Int :=
  if (alts sets).length = 1 then throw .unsuitable else pure 0

def least : List Int → Except Fault Int
  | [] => throw .malformed
  | a :: rest => pure (rest.foldl min a)

/-- The alternative that is the least one in every set, else 0. -/
def singleViable (sets : List (List Int)) : Except Fault Int := do
  let rec go : List (List Int) → List Int → Except Fault Int
    | [], viable => least viable
    | alts :: rest, viable => do
      let m ← least alts
      let viable := if viable.contains m then viable else m :: viable
      if viable.length > 1 then return 0 else go rest viable
  go sets []

end AltSets

/-- Prediction without the callers can stop at these places: no later symbol will tell the alternatives
apart. -/
def ConfigSet.endsPrediction (net : Network) (mode : PredictionMode) (s : ConfigSet) : Except Fault Bool := do
  if s.allAtStop net then return true
  if mode = .sll ∧ s.conditional then throw .missing
  let sets ← s.altSubsets
  return AltSets.anyConflict sets && !s.hasStateOfOneAlt

end MiniC
