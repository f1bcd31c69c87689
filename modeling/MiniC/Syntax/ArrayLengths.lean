import MiniC.Syntax.TypeOf

/-!
# Lengths of declared arrays

The brackets of a declarator give the lengths of its arrays, the first brackets that of the outermost one.
Where the first brackets are empty, the initialiser gives the length.
-/

namespace MiniC.Node

/-- The length that an initialiser gives to the outermost array: for an array of characters the length of
the string with its end, else the number of elements. -/
def initialLength (type : CType) (elements : List Node) : Except Fault Int := do
  match elements with
  | .mk id (.string raw codes) origin children :: _ =>
    if type.base = .char then
      let literal ← (Node.mk id (.string raw codes) origin children).exprType
      if ← type.agrees literal then return codes.length + 1
    return elements.length
  | _ => return elements.length

def writtenLength? (brackets : Node) : Option Int :=
  match brackets.children with
  | .mk _ (.integer value) _ _ :: _ => some value
  | _ => none

/-- Fills in the lengths of arrays. The layers are given outermost first, and with each array goes the next
pair of brackets. -/
def fillLengths (initial : Option (Except Fault Int)) :
    List Layer → List Node → Except Fault (List Layer)
  | [], _ => pure []
  | layer :: rest, brackets =>
    if layer.extent.isArray then
      match brackets with
      | [] => throw .outOfRange
      | pair :: more => do
        let layer ← match writtenLength? pair, initial with
          | some n, _ => pure { layer with extent := .length n }
          | none, some length =>
            if pair.children.isEmpty then do
              let n ← length
              pure ⟨.length n, false⟩
            else pure layer
          | none, none => pure layer
        let rest ← fillLengths none rest more
        return layer :: rest
    else do
      let rest ← fillLengths initial rest brackets
      return layer :: rest

def measured (around : Option Kind) (n : Node) : Except Fault Kind := do
  match n.kind with
  | .declarator head =>
    let initial ← match n.initializer? with
      | some list =>
        if head.layers.any (·.extent.isArray) then do
          let type ← declaratorType around head
          pure (some (initialLength type list.children))
        else pure none
      | none => pure none
    let layers ← fillLengths initial head.layers.reverse n.arrayParts
    return .declarator { head with layers := layers.reverse }
  | .parameter head =>
    let layers ← fillLengths none head.layers.reverse n.arrayParts
    return .parameter { head with layers := layers.reverse }
  | kind => return kind

mutual

def withLengths (around : Option Kind) : Node → Except Fault Node
  | mk id kind origin children => do
    let kind ← (mk id kind origin children).measured around
    let children ← withLengthsAll kind children
    return mk id kind origin children

def withLengthsAll (around : Kind) : List Node → Except Fault (List Node)
  | [] => pure []
  | c :: cs => do
    let c ← withLengths (some around) c
    let cs ← withLengthsAll around cs
    return c :: cs

end

end MiniC.Node
