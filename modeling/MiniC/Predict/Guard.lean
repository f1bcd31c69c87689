import MiniC.Network.Basic

/-!
# Conditions on alternatives

A grammar may put conditions in front of an alternative: `pred` asks the grammar, `prec` asks whether an
operator of a level may follow. A prediction collects the conditions it passes into a `Guard`. Guards are
joined with `both` and `either`; a joined guard lists its parts without repetition, those on levels last.
At most one level can stand in a list, since levels are not compared with each other.
-/

namespace MiniC

inductive Guard where
  | always
  | pred (rule index : Int) (contextual : Bool)
  | prec (level : Int)
  | all (parts : List Guard)
  | any (parts : List Guard)
  deriving Repr, Inhabited

namespace Guard

def isAlways : Guard → Bool
  | always => true
  | _ => false

def isPrec : Guard → Bool
  | prec _ => true
  | _ => false

mutual
/-- Equality of guards. The missing condition is the one of rule -1 and number -1; the order of parts does
not matter. -/
def beq : Guard → Guard → Bool
  | always, always => true
  | always, pred r i c | pred r i c, always => r == -1 && i == -1 && c == false
  | pred r i c, pred r2 i2 c2 => r == r2 && i == i2 && c == c2
  | prec l, prec l2 => l == l2
  | all ps, all qs => ps.length == qs.length && subset ps qs
  | any ps, any qs => ps.length == qs.length && subset ps qs
  | _, _ => false

def subset : List Guard → List Guard → Bool
  | [], _ => true
  | p :: ps, qs => occurs p qs && subset ps qs

def occurs : Guard → List Guard → Bool
  | _, [] => false
  | p, q :: qs => beq p q || occurs p qs
end

instance : BEq Guard := ⟨beq⟩

/-- The parts without repetition, those on levels last; two levels cannot stand together. -/
def gather (parts : List Guard) : Except Fault (List Guard) :=
  let distinct := parts.foldl (fun acc p => if acc.any (p == ·) then acc else acc ++ [p]) []
  let levels := distinct.filter isPrec
  if levels.length > 1 then throw .unsuitable else pure (distinct.filter (!·.isPrec) ++ levels)

def both (a b : Guard) : Except Fault Guard := do
  if a.isAlways then return b
  if b.isAlways then return a
  let parts (g : Guard) := match g with
    | all ps => ps
    | g => [g]
  match ← gather (parts a ++ parts b) with
  | [p] => return p
  | ps => return all ps

def either (a b : Guard) : Except Fault Guard := do
  if a.isAlways || b.isAlways then return always
  let parts (g : Guard) := match g with
    | any ps => ps
    | g => [g]
  match ← gather (parts a ++ parts b) with
  | [p] => return p
  | ps => return any ps

/-- One of two conditions, where the first may not be there yet. -/
def orElse (a : Option Guard) (b : Guard) : Except Fault Guard :=
  match a with
  | none => pure b
  | some a => either a b

mutual
/-- Whether the condition holds: `level` tells whether an operator of a level may follow, `ask` answers
the conditions of the grammar. The answer may be missing, which counts as no. -/
def eval (level : Int → Bool) (ask : Int → Int → Except Fault (Option Bool)) :
    Guard → Except Fault (Option Bool)
  | always => ask (-1) (-1)
  | pred r i _ => ask r i
  | prec l => pure (some (level l))
  | all ps => return some (← evalAll level ask ps)
  | any ps => return some (← evalAny level ask ps)

def evalAll (level : Int → Bool) (ask : Int → Int → Except Fault (Option Bool)) :
    List Guard → Except Fault Bool
  | [] => pure true
  | p :: ps => do
    if (← eval level ask p) == some true then evalAll level ask ps else return false

def evalAny (level : Int → Bool) (ask : Int → Int → Except Fault (Option Bool)) :
    List Guard → Except Fault Bool
  | [] => pure false
  | p :: ps => do
    if (← eval level ask p) == some true then return true else evalAny level ask ps
end

mutual
/-- What is left of a condition once those on levels are answered; `none` if it cannot hold. -/
def settle (level : Int → Bool) : Guard → Except Fault (Option Guard)
  | prec l => pure (if level l then some always else none)
  | all ps => do
    match ← settleAll level ps with
    | none => return none
    | some [] => return some always
    | some (q :: qs) => return some (← qs.foldlM both q)
  | any ps => do
    match ← settleAny level ps with
    | none => return some always
    | some [] => return none
    | some (q :: qs) => return some (← qs.foldlM either q)
  | g => pure (some g)

/-- The parts that are left of a list that has to hold, `none` if one cannot hold. -/
def settleAll (level : Int → Bool) : List Guard → Except Fault (Option (List Guard))
  | [] => pure (some [])
  | p :: ps => do
    match ← settle level p with
    | none => return none
    | some always => settleAll level ps
    | some q => return (← settleAll level ps).map (q :: ·)

/-- The parts that are left of a list of which one has to hold, `none` if one holds. -/
def settleAny (level : Int → Bool) : List Guard → Except Fault (Option (List Guard))
  | [] => pure (some [])
  | p :: ps => do
    match ← settle level p with
    | none => settleAny level ps
    | some always => return none
    | some q => return (← settleAny level ps).map (q :: ·)
end

mutual
def render : Guard → String
  | always => "\x7b-1:-1\x7d?"
  | pred r i _ => "\x7b" ++ toString r ++ ":" ++ toString i ++ "\x7d?"
  | prec _ => "<PrecedencePredicate>"
  | all ps => "&&".intercalate (renderAll ps)
  | any ps => "||".intercalate (renderAll ps)

def renderAll : List Guard → List String
  | [] => []
  | p :: ps => render p :: renderAll ps
end

def ofEdge : Edge → Except Fault Guard
  | .predicate _ r p c => pure (pred r p c)
  | .precedence _ l => pure (prec l)
  | _ => throw .missing

def level? : Guard → Option Int
  | prec l => some l
  | _ => none

/-- How far one level lies above another. -/
def compare (a b : Guard) : Except Fault Int :=
  match a, b with
  | prec l, prec m => pure (l - m)
  | _, _ => throw .missing

mutual
/-- Where a guard stands in a table: levels do not count. -/
def tableKey : Guard → Guard
  | always => pred (-1) (-1) false
  | prec _ => prec 0
  | all ps => all (tableKeys ps)
  | any ps => any (tableKeys ps)
  | g => g

def tableKeys : List Guard → List Guard
  | [] => []
  | p :: ps => tableKey p :: tableKeys ps
end

def sharesKey (a b : Guard) : Bool := a.tableKey == b.tableKey

def renderPair (g : Guard) (alt : Int) : String := "(" ++ g.render ++ ", " ++ toString alt ++ ")"

end Guard

end MiniC
