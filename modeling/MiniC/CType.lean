import MiniC.Fault

/-!
# Types

A type is a base type and a list of layers, innermost first: the base type itself, then a layer for each
pointer and each array. A layer says whether it is an array, of which length if that is known, and whether
it is constant. A type also says whether an expression of the type is only a value or an object that can be
assigned to.

`render` writes a type as a declaration without a name, `asValue` is the type of an object's value, and
`pointee` drops the outermost layer. `agrees` compares base type, number of layers and whether both are
arrays; it ignores constness and lengths.
-/

namespace MiniC

inductive BaseType where
  | int
  | float
  | char
  | void
  | other (name : String)
  deriving DecidableEq, Repr, Inhabited

namespace BaseType

def ofName : String → BaseType
  | "int" => int
  | "float" => float
  | "char" => char
  | "void" => void
  | name => other name

def name : BaseType → String
  | int => "int"
  | float => "float"
  | char => "char"
  | void => "void"
  | other name => name

end BaseType

/-- Whether a layer is an array, and of which length; a scalar layer is a pointer or the base type itself. -/
inductive Extent where
  | scalar
  | unknown
  | length (n : Int)
  deriving DecidableEq, Repr, Inhabited

namespace Extent

def isArray : Extent → Bool
  | scalar => false
  | _ => true

/-- The number that stands for an extent where extents are compared or multiplied. -/
def number : Extent → Int
  | scalar => 0
  | unknown => 1
  | length n => n

end Extent

structure Layer where
  extent : Extent
  const : Bool
  deriving DecidableEq, Repr, Inhabited

structure CType where
  base : BaseType
  /-- Only a value, which cannot be assigned to. -/
  isValue : Bool
  layers : List Layer
  deriving DecidableEq, Repr, Inhabited

namespace CType

def plain (base : BaseType) (isValue : Bool) : CType := ⟨base, isValue, [⟨.scalar, false⟩]⟩

def int : CType := plain .int true
def float : CType := plain .float true
def char : CType := plain .char true
def void : CType := plain .void true
def string : CType := ⟨.char, false, [⟨.scalar, false⟩, ⟨.unknown, false⟩]⟩

def declared (base : BaseType) (const : Bool) (layers : List Layer) (isValue : Bool) : CType :=
  ⟨base, isValue, ⟨.scalar, const⟩ :: layers⟩

def depth (t : CType) : Int := Int.ofNat t.layers.length - 1

def extents (t : CType) : List Extent := t.layers.map (·.extent)

def consts (t : CType) : List Bool := t.layers.map (·.const)

def outermost (t : CType) : Except Fault Layer :=
  match t.layers.getLast? with
  | some layer => pure layer
  | none => throw .outOfRange

/-- The extents from the outermost inwards up to the first that is not an array, if there is such. -/
def dimensions? (t : CType) : Option (List Extent) :=
  let outwards := t.extents.reverse
  let arrays := outwards.takeWhile Extent.isArray
  if arrays.length < outwards.length then some arrays else none

/-- The number of cells that an object of the type takes. -/
def size? (t : CType) : Option Int := t.dimensions?.map fun ds => ds.foldl (fun n d => n * d.number) 1

def size (t : CType) : Except Fault Int :=
  match t.size? with
  | some n => pure n
  | none => throw .unsuitable

def isArray (t : CType) : Except Fault Bool := t.outermost.map (·.extent.isArray)

def isPointer (t : CType) : Except Fault Bool :=
  if t.depth = 0 then pure false else t.outermost.map fun layer => !layer.extent.isArray

def isConst (t : CType) : Except Fault Bool := t.outermost.map (·.const)

def hasArrays (t : CType) : Bool := t.extents.any Extent.isArray

/-- The type of the value of an object: an array is then a pointer. -/
def asValue (t : CType) : Except Fault CType :=
  if t.isValue then pure t
  else do
    let layer ← t.outermost
    return { t with isValue := true, layers := t.layers.dropLast ++ [{ layer with extent := .scalar }] }

def pointee (t : CType) : CType := { t with layers := t.layers.dropLast }

/-- The types have the same base and number of layers, and both are arrays or both are not. -/
def agrees (t u : CType) : Except Fault Bool :=
  if t.base = u.base ∧ t.depth = u.depth then do
    let a ← t.isArray
    let b ← u.isArray
    return a == b
  else pure false

/-- The extents are the same, where an array of unknown length counts as one of length 1. -/
def sameExtents (t u : CType) : Bool := t.extents.map Extent.number == u.extents.map Extent.number

def truthWord (b : Bool) : String := if b then "True" else "False"

def truthWords (bs : List Bool) : String := "[" ++ String.intercalate ", " (bs.map truthWord) ++ "]"

/-- A layer in front of what is written of the layers outside of it. -/
def renderLayer (layer : Layer) (outer : Option Layer) (declarator : String) : String :=
  match layer.extent with
  | .scalar => (if layer.const then "*const " else "*") ++ declarator
  | extent =>
    let inner :=
      if outer.any fun o => !o.extent.isArray then
        let text := if declarator.endsWith " " then (declarator.dropEnd 1).toString else declarator
        "(" ++ text ++ ")"
      else declarator
    let length := match extent with
      | .length n => toString n
      | _ => ""
    inner ++ "[" ++ length ++ "]"

/-- The layers outside of the base type, with the layer outside of each. -/
def renderLayers : List Layer → String
  | [] => ""
  | layer :: rest => renderLayer layer rest.head? (renderLayers rest)

def render (t : CType) : String :=
  let declarator := renderLayers (t.layers.drop 1)
  (if t.consts.head?.getD false then "const " else "") ++ t.base.name
    ++ (if declarator.isEmpty then "" else " " ++ declarator)

def renderFull (t : CType) : String := t.render ++ (if t.isValue then " rvalue" else " lvalue")

/-- A value of the second type keeps, as the first type, all that is constant below the outermost layer. -/
def keepsConst (t u : CType) : Except Fault Bool :=
  if t.layers.length = u.layers.length then
    pure ((t.consts.dropLast.zip u.consts).all fun (a, b) => !b || a)
  else
    throw (.illegal ("isConstCompatible expects const lists of the same length; got " ++ truthWords t.consts
      ++ " for " ++ t.render ++ " and " ++ truthWords u.consts ++ " for " ++ u.render))

end CType

end MiniC
