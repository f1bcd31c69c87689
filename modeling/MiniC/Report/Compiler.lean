import MiniC.Compile
import MiniC.Report.Parts

/-!
# Reports on compilations

What each stage of a compilation left: the syntax tree before and after checking, the symbols, the code and all that
was found wrong; and what is known about single nodes and symbols.
-/

namespace MiniC

/-- The listing of a node, its type and its place. Only expressions know the expression around them. -/
def Node.report (n : Node) (level : Nat) : Datum :=
  let type := n.typeOf none
  let isExpression := n.kind.isExpression
  let ask (ok : Bool) (a : Datum) := if ok then a else .fault .missing
  .record [field "out" (MiniC.listing <$> n.render none level), field "type" type,
    field "typeText" (CType.renderFull <$> type), field "base" (ask isExpression (datum true)),
    field "at" (n.position none),
    field "childBase" (ask (n.children.all (·.kind.isExpression)) (datum (n.children.map fun _ => !isExpression)))]

instance : ToDatum Symbol := ⟨fun s =>
  .record [field "name" s.name, field "type" s.type.render, field "address" s.address, field "defined" s.isDefined,
    match s with
    | .object o => field "seen" o.seen
    | .function g => field "depth" g.depth]⟩

/-- How deep the open scopes of a table are nested, and the innermost one. -/
def SymbolTable.place (t : SymbolTable) : Datum :=
  datum (t.depth, t.functionDepth, t.current.map fun c => (t.scope c).name, t.current.map t.cellsOf)

namespace Compilation

def report (c : Compilation) (source : String) : Datum :=
  let part (name : String) (text : Option String) := (text.map fun t => field name (listing t)).toList
  let checked := c.checkedText.map fun text =>
    if some text = c.treeText then field "ast2" "same" else field "ast2" (listing text)
  let found := c.diagnostics.map fun (stage, d) =>
    (stage.name, if d.isWarning then "warning" else "error", d.line, d.column, d.message)
  (c.fault.elim (.record []) Datum.fault).extend ([field "stage" c.stage.name] ++ part "ast" c.treeText ++
    checked.toList ++ part "symbols" c.symbols ++ part "code" (c.code.map codeText) ++ [field "diagnostics" found,
    field "report" (listing <$> Diagnostic.report "in.c" source c.found),
    field "stdout" (printedLines (c.notices ++ c.codeNotices).toArray), field "stderr" (printedLines c.messages)])

end Compilation

end MiniC
