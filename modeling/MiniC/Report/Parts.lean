import MiniC.CType
import MiniC.Datum
import MiniC.Grammar.Basic
import MiniC.Predict.Config

/-!
# Parts of recognizers as data

How the parts of lexers, parsers and predictions and the types of a program are seen as data. An edge is its name and
its target with what it stands for, a guard that is joined lists its parts in order, and a stack lists its ways out.
-/

namespace MiniC

instance : ToDatum IntervalSet := ⟨fun s => datum (s.ranges.map fun rs => rs.map fun r => (r.start, r.stop))⟩
instance : ToDatum Token := ⟨fun t => datum t.render⟩
instance : ToDatum ParseTree := ⟨fun t => datum t.text⟩

def LexerAction.toDatum : LexerAction → Datum
  | custom r a => datum ("custom", r, a)
  | indexed o a => datum ("indexed", o, a.toDatum)
  | a => datum a.render

instance : ToDatum LexerAction := ⟨LexerAction.toDatum⟩

def Edge.toDatum (e : Edge) : Datum :=
  .row ([datum e.name, datum e.target] ++ match e with
    | rule _ r p t => [datum r, datum p, datum t]
    | epsilon _ r => [datum r]
    | e => (e.label?.map datum).toList)

instance : ToDatum Edge := ⟨Edge.toDatum⟩
instance : ToDatum NetState := ⟨fun s => datum (s.kind.name, s.rule, s.freeOnly, s.edges)⟩

namespace Guard

def joined (name : String) (parts : List Datum) : Datum :=
  .row (datum name :: parts.mergeSort fun a b => a.render ≤ b.render)

mutual
def toDatum : Guard → Datum
  | always => datum "none"
  | prec n => datum s!"prec {n}"
  | all ps => joined "AND" (toData ps)
  | any ps => joined "OR" (toData ps)
  | g => datum g.render

def toData : List Guard → List Datum
  | [] => []
  | p :: ps => toDatum p :: toData ps
end

end Guard

instance : ToDatum Guard := ⟨Guard.toDatum⟩

def Stack.toDatum : Stack → Datum
  | unknown => .nothing
  | empty => datum "$"
  | call p r => datum ("single", p.toDatum, r)
  | fork p r q s => .row [datum "array", datum (p.toDatum, r), datum (q.toDatum, s)]

instance : ToDatum Stack := ⟨Stack.toDatum⟩
instance : ToDatum Config := ⟨fun c => datum (c.state, c.alt, c.stack, c.guard, c.up, c.suppressed)⟩
instance : ToDatum ConfigSet := ⟨fun s => datum (s.fullCtx, s.dips, s.conditional, s.configs)⟩
instance : ToDatum Extent := ⟨fun
  | .scalar => datum false
  | .unknown => datum true
  | .length n => datum n⟩
instance : ToDatum CType := ⟨fun t => .record [field "base" t.base.name, field "rvalue" t.isValue,
  field "ind" (t.layers.map fun l => (l.extent, l.const))]⟩

end MiniC
