import MiniC.Syntax.Node

/-!
# Types of nodes

The type of an expression follows from its parts, from the symbol of a variable and from the function that
is called; a declaration has the type of what it declares. `typeOf?` gives nothing for a variable that is not
bound to a symbol.
-/

namespace MiniC.Node

/-- The type that a declarator gives to its name; its specifiers come from the declaration around it. -/
def declaratorType (around : Option Kind) (head : DeclaratorHead) : Except Fault CType :=
  match around.bind Kind.specifiers? with
  | some spec => pure (.declared spec.base spec.const head.layers false)
  | none => throw .missing

def required : Option CType → Except Fault CType
  | some t => pure t
  | none => throw .missing

mutual

/-- The type of a node, whose parent is of a kind. -/
def typeOf? (around : Option Kind) : Node → Except Fault (Option CType)
  | mk _ kind _ children =>
    let types := typesOf kind children
    let nth (i : Nat) : Except Fault (Option CType) :=
      match types[i]? with
      | some t => t
      | none => throw .outOfRange
    match kind with
    | .function head => pure (some (.declared head.spec.base head.spec.const head.layers true))
    | .parameter head => pure (some (.declared head.spec.base head.spec.const head.layers false))
    | .declarator head => some <$> declaratorType around head
    | .integer _ | .logicalNot | .logic _ | .compare _ => pure (some .int)
    | .float _ => pure (some .float)
    | .character _ => pure (some .char)
    | .string _ codes =>
      pure (some ⟨.char, false, [⟨.scalar, false⟩, ⟨.length (codes.length + 1), false⟩]⟩)
    | .name _ type _ => pure type
    | .call name callee _ =>
      match callee, name with
      | some f, _ => some <$> f.type.asValue
      | none, some name => throw (.illegal ("definitionNode has not been set yet for function " ++ name))
      | none, none => throw .unsuitable
    | .cast spec layers => pure (some (.declared spec.base spec.const layers true))
    | .unary .. => nth 0
    | .assign => nth 0
    | .addressOf => do
      let t ← nth 0 >>= required
      return some { t with isValue := true, layers := t.layers ++ [⟨.scalar, false⟩] }
    | .dereference => do
      let t ← nth 0 >>= required
      if t.layers.isEmpty then throw .outOfRange
      return some { t.pointee with isValue := false }
    | .subscript => do
      let t ← nth 0 >>= required
      return some { t.pointee with isValue := false }
    | .comma | .conditional => do
      let t ← nth 1 >>= required
      some <$> t.asValue
    | .arith _ => do
      let u ← nth 1 >>= required
      if ← u.isPointer then some <$> u.asValue
      else
        let t ← nth 0 >>= required
        some <$> t.asValue
    | _ => throw .missing

def typesOf (around : Kind) : List Node → List (Except Fault (Option CType))
  | [] => []
  | c :: cs => typeOf? (some around) c :: typesOf around cs

end

def typeOf (around : Option Kind) (n : Node) : Except Fault CType := n.typeOf? around >>= required

def exprType (n : Node) : Except Fault CType := n.typeOf none

end MiniC.Node
