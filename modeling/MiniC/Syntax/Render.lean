import MiniC.Syntax.TypeOf

/-!
# Listings of syntax trees

A tree is listed with one line for each node, indented by its depth. Declarations have further lines for
their types; the parts of a condition and the header of a loop have captions.
-/

namespace MiniC.Node

def margin (level : Nat) : String := String.join (List.replicate level "  | ")

def line (level : Nat) (text : String) : String := margin level ++ text ++ "\n"

def nameWord (name : Option String) : String := name.getD "None"

/-- What a line says about a node of a kind that has no lines of its own. -/
def label : Kind → String
  | .program => "program"
  | .includeFile _ name => "include - " ++ name
  | .function head =>
    match head.form with
    | .declaration => "function declaration"
    | .definition => "function definition"
    | .main => "main"
  | .parameters => "parameters"
  | .parameter _ => "parameter"
  | .arguments => "arguments"
  | .initializerList _ => "initializer list"
  | .arrayPart => "array part"
  | .statements => "statements"
  | .statement => "statement"
  | .returnStmt => "return"
  | .breakStmt => "break"
  | .continueStmt => "continue"
  | .ifStmt => "if"
  | .elseBranch => "else"
  | .forLoop .. => "for"
  | .whileLoop => "while"
  | .doWhile => "doWhile"
  | .variableDeclaration _ => "variable declaration"
  | .declarator _ => "declarator initializer"
  | .integer value => "int - " ++ toString value
  | .float value => "float - " ++ value.shortest
  | .character text => "char - " ++ text
  | .string raw _ => "string - " ++ raw
  | .name text _ _ => "variable - " ++ text
  | .call .. => "function call"
  | .cast .. => "type cast"
  | .unary op side => op.sign ++ " - " ++ side.word
  | .addressOf => "&"
  | .dereference => "*"
  | .logicalNot => "!"
  | .subscript => "[]"
  | .comma => ","
  | .assign => "="
  | .logic op => op.word
  | .compare op => op.sign
  | .arith op => op.sign
  | .conditional => "?:"

def ownLines (around : Option Kind) (level count : Nat) (kind : Kind) : Except Fault String :=
  match kind with
  | .function head =>
    let type := CType.declared head.spec.base head.spec.const head.layers true
    pure (line level (label kind) ++ line (level + 1) ("return type: " ++ type.render)
      ++ line (level + 1) ("identifier:  " ++ nameWord head.name))
  | .parameter head =>
    let type := CType.declared head.spec.base head.spec.const head.layers false
    pure (line level (nameWord head.name ++ ": " ++ type.render))
  | .initializerList _ => pure (line level (label kind ++ ", " ++ toString count ++ " elements"))
  | .variableDeclaration spec =>
    pure (line level (label kind) ++ line (level + 1) ("type: " ++ spec.base.name ++ ", const: "
      ++ CType.truthWord spec.const))
  | .declarator head =>
    match head.name with
    | none => throw .unsuitable
    | some name => do
      let type ← declaratorType around head
      return line level (label kind) ++ line (level + 1) (name ++ ": " ++ type.render)
  | .call name _ _ =>
    match name with
    | some name => pure (line level (label kind ++ " - " ++ name))
    | none => throw .unsuitable
  | .cast spec layers =>
    pure (line (level + 1) ("target type - " ++ (CType.declared spec.base spec.const layers true).render))
  | _ => pure (line level (label kind))

/-- The captions in front of the children of a node, in order. -/
def captions : Kind → List (Option String)
  | .ifStmt => [some "condition", some "then"]
  | .forLoop a b c =>
    let part (there : Bool) (caption : String) : List (Option String) := if there then [some caption] else []
    part a "initializer" ++ part b "condition" ++ part c "iteration"
  | _ => []

def isListedAlone : Kind → Bool
  | .integer _ | .float _ | .character _ | .string .. | .name .. => true
  | _ => false

mutual

def render (around : Option Kind) (level : Nat) : Node → Except Fault String
  | mk _ kind _ children => do
    let own ← ownLines around level children.length kind
    if isListedAlone kind then return own
    let below ← renderAll kind level (captions kind) children
    return own ++ below

def renderAll (around : Kind) (level : Nat) (captions : List (Option String)) :
    List Node → Except Fault String
  | [] => pure ""
  | c :: cs => do
    let first ← match captions with
      | some caption :: _ => do
        let text ← render (some around) (level + 2) c
        pure (line (level + 1) caption ++ text)
      | _ => render (some around) (level + 1) c
    let rest ← renderAll around level captions.tail cs
    return first ++ rest

end

def listing (n : Node) : Except Fault String := do
  let text ← n.render none 0
  return "AST:\n" ++ text

end MiniC.Node
