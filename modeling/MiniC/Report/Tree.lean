import MiniC.Parse.Prediction
import MiniC.Parse.TagPattern
import MiniC.Parse.TreePattern
import MiniC.Parse.Walk
import MiniC.Report.Parts
import MiniC.Syntax.Build
import MiniC.Syntax.Render

/-!
# Reports on parse trees

`ParseTree.census` lists the nodes of a tree with their texts and children, `ParseTree.walked` what a walk through the
tree meets, and `PatternMatch.report` how a tree fits a pattern.
-/

namespace MiniC

namespace ParseTree

def described (g : Grammar) : ParseTree × List RuleInfo → Datum
  | (leaf t bad, _) => .record [field "token" (g.tokenName t.type), field "text" t.text, field "bad" bad,
      field "interval" (t.index, t.index)]
  | (t@(node i cs), above) => .record [field "rule" (g.ruleName i.rule.toNat), field "text" t,
      field "interval" t.interval, field "depth" (above.length + 1), field "children" cs.length,
      field "get" (Datum.record ((g.accessorsOf i.rule.toNat i.label).flatMap fun
        | .one name => [field name (g.childrenOf t name).head?]
        | .many name => [field name (g.childrenOf t name), field (name ++ "(0)") (g.childrenOf t name).head?]))]

/-- The nodes of a tree, the rules above the last one, and the texts of the tokens of a name. -/
def census (g : Grammar) (t : ParseTree) (wanted : Option String) : List (String × Datum) :=
  let all := t.withAncestors []
  let found := wanted.map fun name => field "found" (all.filterMap fun
    | (leaf t _, _) => if some t.type = g.tokenType? name then some t.text else none
    | _ => none)
  [field "nodes" (all.map (described g)), field "stack" (t.lastPath.map fun i => g.ruleName i.rule.toNat)] ++ found.toList

def childTexts (g : Grammar) (rule child : String) (t : ParseTree) : List String :=
  (t.descendants.filter fun n => n.info?.any fun i => g.ruleName i.rule.toNat == rule).map fun n =>
    ((g.childrenOf n child).head?.map (·.text)).getD "None"

/-- What a walk through a tree meets, with what is known about its last node and its last leaf. -/
def walked (g : Grammar) (t : ParseTree) (token : Option Int) (program : Bool) : List (String × Datum) :=
  let names := g.ruleNames
  let path := t.lastPath
  let callers := path.map (·.caller)
  let texts (k : Int) := ((t.descendants.filter (!·.isLeaf)).take 20).map (·.tokensOf k)
  let leaf := t.lastLeaf?.map fun (up, k) =>
    ((), up, k.text, "[]", t.info?.map fun (i : RuleInfo) => g.ruleName i.rule.toNat, Datum.fault .missing)
  let listed : Except Fault (List String) := do return listing (← (← Node.ofParseTree t).listing)
  [field "events" (t.events names), field "visited" t.leafEvents, field "result" (), field "tree" (t.render names),
    field "last" (pathText names path path.length), field "lastBelowRoot" (pathText names path (path.length - 1)),
    field "states" (Parser.callersText callers),
    field "empty" (t.info?.map (·.caller) == some (-1), callers.head? == some (-1)), field "payload" true,
    field "children" (t.children, t.children.filter (·.isLeaf)), field "tokens" (token.map texts), field "leaf" leaf,
    field "ast" (if program then some listed else none)]

end ParseTree

def PatternMatch.report (m : PatternMatch) (p : TreePattern) (labels : List String) (text : String) :
    List (String × Datum) :=
  let chunks : Except Fault (List String) := do (← TagPattern.split .standard text).mapM Chunk.render
  [field "text" m.render, field "ok" (m.succeeded, m.succeeded), field "mismatch" m.misfit,
    field "labels" (Datum.record (m.found.map fun (k, ts) => field k ts)),
    field "get" (labels.map fun l => (l, m.get? l, m.getAll l)), field "tags" (p.tags.map fun t => (t.text, t.render)),
    field "chunks" chunks]

end MiniC
