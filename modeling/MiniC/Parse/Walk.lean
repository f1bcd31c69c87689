import MiniC.Parse.Tree

/-!
# Walks through parse trees

A walk meets the nodes and leaves of a tree from top to bottom and from left to right. `events` is the record of
a walk: each rule when it is entered and when it is left, and each token. A path goes from a node up to the root.
-/

namespace MiniC.ParseTree

def leafEvent (t : Token) (bad : Bool) : String := (if bad then "!" else "=") ++ leafName t

mutual
def events (ruleNames : Array String) : ParseTree → List String
  | leaf t bad => [leafEvent t bad]
  | node i cs =>
    let name := (entryAt? ruleNames i.rule).getD ""
    ("+" ++ name) :: eventsAll ruleNames cs ++ ["-" ++ name]

def eventsAll (ruleNames : Array String) : List ParseTree → List String
  | [] => []
  | c :: cs => events ruleNames c ++ eventsAll ruleNames cs
end

def leafEvents (t : ParseTree) : List String :=
  t.descendants.filterMap fun
    | leaf t bad => some (leafEvent t bad)
    | node .. => none

def lastPath (t : ParseTree) : List RuleInfo :=
  ((t.withAncestors []).foldl (fun path (t, above) => match t with
    | leaf .. => path
    | node i _ => some (i :: above)) none).getD []

/-- The names of the rules on the first steps of a path. All but the root are followed by a blank. -/
def pathText (ruleNames : Array String) (path : List RuleInfo) (steps : Nat) : String :=
  let names := path.map fun i => (entryAt? ruleNames i.rule).getD ""
  let spaced := names.dropLast.map (· ++ " ") ++ names.getLast?.toList
  "[" ++ String.join (spaced.take steps) ++ "]"

mutual
def lastLeaf? : ParseTree → Option (ParseTree × Token)
  | leaf .. => none
  | node i cs => lastLeafOf (node i cs) cs

def lastLeafOf (parent : ParseTree) : List ParseTree → Option (ParseTree × Token)
  | [] => none
  | leaf t _ :: cs => (lastLeafOf parent cs).or (some (parent, t))
  | node i cs' :: cs => (lastLeafOf parent cs).or (lastLeafOf (node i cs') cs')
end

end MiniC.ParseTree
