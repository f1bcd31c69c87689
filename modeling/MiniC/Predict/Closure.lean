import MiniC.Predict.AltSets
import MiniC.Network.Follow

/-!
# Following a network without parsing it

`Closure.close` adds to a set all places that can be reached from one without reading a symbol; at the end
of a rule it returns to the callers it knows and else to all possible ones. `Closure.start` begins a
decision, `Closure.step` reads one symbol. `Closure.filterPrecedence` drops the places that the operator
levels of a left-recursive rule forbid.
-/

namespace MiniC

namespace Closure

structure Env where
  net : Network
  level : Int → Bool
  ask : Int → Int → Except Fault (Option Bool)
  loopRule : Option Int

namespace Env

def holds (env : Env) (g : Guard) : Except Fault Bool :=
  return (← g.eval env.level env.ask) == some true

end Env

/-- The places found and those that are not to be followed again. -/
structure Work where
  set : ConfigSet
  busy : Std.HashMap UInt64 (List Config) := {}

namespace Work

def isBusy (w : Work) (c : Config) : Bool := ((w.busy[c.key]?).getD []).any (·.same c)

def enter (w : Work) (c : Config) : Work :=
  { w with busy := w.busy.alter c.key fun cs => some (c :: cs.getD []) }

def add (w : Work) (c : Config) : Except Fault Work := return { w with set := ← w.set.add c }

end Work

/-- Whether the calls below the decision are known, and whether the end of the input may be passed. -/
structure Options where
  fullCtx : Bool
  eofIsFree : Bool

/-- Where an edge with a condition leads. The condition is kept if it stands in front of the decision, and
tested at once if the callers are known. -/
def guarded (env : Env) (o : Options) (c : Config) (target : Nat) (g : Guard) (relevant : Bool) :
    Except Fault (Option Config) := do
  if !relevant then return some { c with state := target }
  if o.fullCtx then
    if ← env.holds g then return some { c with state := target } else return none
  return some { c with state := target, guard := ← c.guard.both g }

/-- Where an edge leads without reading a symbol. -/
def freeTarget (env : Env) (o : Options) (collect inContext : Bool) (c : Config) (edge : Edge) :
    Except Fault (Option Config) :=
  match edge with
  | .rule target _ _ follow =>
    if c.stack.isFork then throw .unsuitable
    else pure (some { c with state := target, stack := .push c.stack (Int.ofNat follow) })
  | .precedence target level => guarded env o c target (.prec level) (collect && inContext)
  | .predicate target rule index contextual =>
    guarded env o c target (.pred rule index contextual) (collect && (!contextual || inContext))
  | .action target .. | .epsilon target _ => pure (some { c with state := target })
  | .atom target _ | .range target _ _ | .set target _ =>
    pure (if o.eofIsFree ∧ edge.reads (-1) 0 1 then some { c with state := target } else none)
  | .notSet .. | .wildcard _ => pure none

/-- Adds all places that can be reached from one. `collect` tells that conditions are still in front of
the decision, `depth` counts the calls since the decision; it is negative outside of its rule. -/
def close (env : Env) (o : Options) : Nat → Config → Bool → Int → Work → Except Fault Work
  | 0, _, _, _, _ => throw .exhausted
  | fuel + 1, c, collect, depth, w => do
    let s := env.net.state c.state
    let atStop := s.kind = .ruleStop
    if atStop ∧ c.stack = .unknown then throw .missing
    if atStop ∧ !c.stack.isEmpty then
      c.stack.branches.foldlM (fun w (below, back) => do
        let (state, _) ← env.net.stateAt back
        close env o fuel { c with state, stack := below, suppressed := false } collect (depth - 1) w) w
    else if atStop ∧ o.fullCtx then w.add c
    else
      let w ← if s.freeOnly then pure w else w.add c
      s.edges.foldlM (fun w edge => do
        let collect := collect && !edge.isAction
        match ← freeTarget env o collect (depth == 0) c edge with
        | none => return w
        | some next =>
          if !edge.isFree ∧ w.isBusy next then return w
          let w := if edge.isFree then w else w.enter next
          if atStop then
            if w.isBusy next then return w
            let leaves := match env.loopRule with
              | some rule => edge.outermostReturn == rule
              | none => false
            let next := { next with up := next.up + 1, suppressed := next.suppressed || leaves }
            let w := w.enter next
            let w := { w with set := { w.set with dips := true } }
            close env o fuel next collect (depth - 1) w
          else
            let depth := match edge with
              | .rule .. => if depth ≥ 0 then depth + 1 else depth
              | _ => depth
            close env o fuel next collect depth w) w

def budget (net : Network) (c : Config) : Nat :=
  (net.states.size + 2) * (net.states.size + c.stack.depth + 4)

def reachable (env : Env) (collect : Bool) (o : Options) (c : Config) : Except Fault ConfigSet :=
  return (← close env o (budget env.net c) c collect 0 { set := .empty o.fullCtx }).set

/-- The calls that are open, given the states that made them, innermost first. -/
def stackOf (net : Network) : List Int → Except Fault Stack
  | [] => pure .empty
  | caller :: rest => do
    let below ← stackOf net rest
    return .push below (Int.ofNat (← net.followOf caller))

def start (env : Env) (state : Nat) (below : Stack) (fullCtx : Bool) : Except Fault ConfigSet := do
  let edges := (env.net.state state).edges
  let (set, _) ← edges.foldlM (fun (set, alt) edge => do
    let c : Config := { state := edge.target, alt, stack := below }
    let w ← close env ⟨fullCtx, false⟩ (budget env.net c) c true 0 { set }
    return (w.set, alt + 1)) (ConfigSet.empty fullCtx, (1 : Int))
  return set

/-- The places at the end of a rule. With `lookAhead` a place from which the end can be reached without a
symbol counts as well. -/
def keepStops (net : Network) (follow : Follow) (lookAhead : Bool) (set : ConfigSet) :
    Except Fault (ConfigSet × Follow) := do
  if set.allAtStop net then return (set, follow)
  set.configs.foldlM (fun (out, follow) c => do
    let s := net.state c.state
    if s.kind = .ruleStop then return (← out.add c, follow)
    if lookAhead ∧ s.freeOnly then
      let (next, follow) ← follow.next net c.state
      if next.contains epsilonSymbol then
        let stop ← entryAt net.ruleStop s.rule
        return (← out.add { c with state := stop }, follow)
      return (out, follow)
    return (out, follow)) (ConfigSet.empty set.fullCtx, follow)

/-- The places after reading a symbol, `none` if there are none. -/
def step (env : Env) (set : ConfigSet) (symbol : Int) (fullCtx : Bool) : Except Fault (Option ConfigSet) := do
  let net := env.net
  let (direct, stopped) ← set.configs.foldlM (fun (direct, stopped) c => do
    let s := net.state c.state
    if s.kind = .ruleStop then
      return (direct, if fullCtx ∨ symbol = eofSymbol then stopped.push c else stopped)
    let direct ← s.edges.foldlM (fun (direct : ConfigSet) edge => do
      if edge.reads symbol 0 net.maxTokenType then direct.add { c with state := edge.target }
      else return direct) direct
    return (direct, stopped)) (ConfigSet.empty fullCtx, (#[] : Array Config))
  let decided := stopped.isEmpty ∧ symbol ≠ eofSymbol ∧ (direct.size = 1 ∨ direct.onlyAlt ≠ 0)
  let reach ← if decided then pure direct else do
    let w ← direct.configs.foldlM (fun w c =>
      close env ⟨fullCtx, symbol == eofSymbol⟩ (budget net c) c false 0 w)
      { set := ConfigSet.empty fullCtx }
    pure w.set
  let reach ← if symbol = eofSymbol then do
      let (kept, _) ← keepStops net {} false reach
      pure kept
    else pure reach
  let reach ← if !stopped.isEmpty ∧ (!fullCtx ∨ !reach.anyAtStop net) then reach.addAll stopped.toList
    else pure reach
  return if reach.configs.isEmpty then none else some reach

/-- The places of an operator loop that the levels allow. A place of another alternative is dropped if the
first one comes to the same state with the same calls. -/
def filterPrecedence (env : Env) (set : ConfigSet) : Except Fault ConfigSet := do
  let (out, firsts) ← set.configs.foldlM (fun (out, firsts) c => do
    if c.alt ≠ 1 then return (out, firsts)
    match ← c.guard.settle env.level with
    | none => return (out, firsts)
    | some guard => return (← out.add { c with guard }, firsts.insert c.state c.stack))
    (ConfigSet.empty set.fullCtx, (∅ : Std.HashMap Nat Stack))
  set.configs.foldlM (fun out c => do
    if c.alt = 1 then return out
    if !c.suppressed ∧ (firsts[c.state]? == some c.stack || (firsts[c.state]? == none && c.stack == .unknown)) then
      return out
    out.add c) out

/-- The alternatives' conditions, joined over the places of each alternative; the first entry is for no
alternative. `none` if no alternative has a condition. -/
def guardsOf (ambiguous : List Int) (set : ConfigSet) (count : Nat) :
    Except Fault (Option (Array (Option Guard))) := do
  let guards ← set.configs.foldlM (fun guards c => do
    if !ambiguous.contains c.alt then return guards
    let old ← entryAt guards c.alt
    setAt guards c.alt (some (← Guard.orElse old c.guard))) (Array.replicate (count + 1) (none : Option Guard))
  let filled := guards.mapIdx fun i g => if i = 0 then g else some (g.getD .always)
  let conditional := filled.toList.drop 1 |>.any fun g => g.any (!·.isAlways)
  return if conditional then some filled else none

/-- Pairs of a condition and the alternative it allows. `none` if there is no condition at all. -/
def predictionsOf (ambiguous : Option (List Int)) (guards : List Guard) :
    Option (List (Guard × Int)) :=
  if guards.all (·.isAlways) then none
  else
    let pairs := guards.zipIdx.map fun (g, i) => (g, Int.ofNat i + 1)
    some (pairs.filter fun (_, alt) => ambiguous.any (·.contains alt))

/-- The alternatives whose conditions hold, in the order of the pairs. -/
def allowed (env : Env) (pairs : List (Guard × Int)) (complete : Bool) : Except Fault (List Int) := do
  let rec go : List (Guard × Int) → List Int → Except Fault (List Int)
    | [], acc => pure acc
    | (g, alt) :: rest, acc => do
      let hit ← if g.isAlways then pure true else env.holds g
      if hit then
        if complete then go rest (alt :: acc) else return alt :: acc
      else go rest acc
  return sortedDistinct (← go pairs [])

def splitByGuard (env : Env) (set : ConfigSet) : Except Fault (ConfigSet × ConfigSet) :=
  set.configs.foldlM (fun (good, bad) c => do
    if c.guard.isAlways then return (← good.add c, bad)
    if ← env.holds c.guard then return (← good.add c, bad) else return (good, ← bad.add c))
    (ConfigSet.empty set.fullCtx, ConfigSet.empty set.fullCtx)

/-- The least alternative that came to the end of the rule of the decision, else 0. -/
def finishedAlt (net : Network) (set : ConfigSet) : Except Fault Int := do
  let alts ← set.configs.toList.filterMapM fun c => do
    if c.up > 0 then return some c.alt
    if net.isRuleStop c.state then
      if c.stack = .unknown then throw .missing
      if c.stack.hasEmptyPath then return some c.alt
    return none
  if alts.isEmpty then return 0 else AltSets.least alts

/-- The alternative to take where no symbol fits: one that came to the end of the rule, preferably one
whose conditions hold; else 0. -/
def fallback (env : Env) (set : ConfigSet) : Except Fault Int := do
  let (good, bad) ← splitByGuard env set
  let alt ← finishedAlt env.net good
  if alt ≠ 0 then return alt
  if bad.configs.isEmpty then return 0 else finishedAlt env.net bad

end Closure

end MiniC
