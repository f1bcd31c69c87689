import MiniC.Predict.Automaton
import MiniC.Report.Parts

/-!
# Reports on sets of places

What is known about a set of places and about the alternatives that conflict in it.
-/

namespace MiniC

namespace ConfigSet

def summary (s : ConfigSet) : Except Fault (List Datum) :=
  return [datum (← s.render), datum s.size, datum s.configs.isEmpty, datum s.conditional, datum s.dips]

def stopped (net : Network) (s : ConfigSet) (lookAhead : Bool) : Except Fault (Bool × ConfigSet) :=
  return (s.allAtStop net, (← Closure.keepStops net {} lookAhead s).1)

/-- Whether a prediction ends with the set, which places are at the end of a rule and which alternatives meet. -/
def conflicts (net : Network) (mode : PredictionMode) (s : ConfigSet) : Except Fault Datum := do
  let ends ← s.endsPrediction net mode
  let subsets := (← s.altSubsets).mergeSort fun a b => !b.lex a
  return datum (ends, s.anyAtStop net, s.allAtStop net, subsets, s.hasStateOfOneAlt)

def asNode (s : ConfigSet) (number : Int) (outcome : Option String) : Except Fault Datum := do
  let text := toString number ++ ":" ++ (← s.render) ++ (outcome.map ("=>" ++ ·)).getD ""
  return datum (text, if s.alts.isEmpty then none else some s.alts, true, false)

end ConfigSet

def AltSets.report (sets : List (List Int)) : Except Fault Datum :=
  return datum (anyConflict sets, anySingle sets, allConflict sets, allEqual sets, alts sets, ← singleViable sets)

/-- The starts of an automaton by level once one of them is set, and what is left when they are turned off. -/
def Automaton.levelReport (a : Automaton) (level : Int) : Except Fault Datum := do
  let a ← a.setStart? level level.toNat
  let b := a.setLeveled false
  return datum ("True", [a.startFor (-1), a.startFor level, a.startFor 99], b.start.isNone, ← b.listing none, "")

end MiniC
