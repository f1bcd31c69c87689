import MiniC.Scope.Pass

/-!
# Types of initialisers

An initialiser has to agree with the type of what is declared. The lists of an array follow its dimensions;
where a list is missing around an element, one is put there.
-/

namespace MiniC.Check

open Pass

def extentWord : Extent → String
  | .scalar => "False"
  | .unknown => "True"
  | .length n => toString n

/-- The bracket pair that belongs to the array with a number, counted from the last pair; with no array yet it
is the first pair. -/
def bracketsOf (brackets : List Node) (count : Nat) : Except Fault Node :=
  entryAt brackets.toArray (-Int.ofNat count)

/-- Checks the dimensions of a declared array; whether they are in order. -/
def dimensionsOk (decl : Node) (above : List Node) (name : String) (brackets : List Node) :
    Nat → List Layer → PassM Bool
  | _, [] => pure true
  | count, layer :: rest => do
    let count := if layer.extent.isArray then count + 1 else count
    let pair ← lift (bracketsOf brackets count)
    match pair.children with
    | length :: _ =>
      if !length.kind.isInteger then
        error length (pair :: decl :: above) s!"expected integer literal as array length for '{name}'"
        return false
    | [] => pure ()
    if layer.extent = .unknown then
      if count = brackets.length then
        error decl above s!"array size missing in '{name}'"
        return false
      match rest with
      | [] => throw .outOfRange
      | next :: _ =>
        if next.extent = .unknown then
          error decl above s!"array type has incomplete element type in '{name}'"
          return false
    dimensionsOk decl above name brackets count rest

/-- Checks an expression that initialises something of a type. -/
def initializerOk (decl : Node) (aboveDecl : List Node) (target : CType) (element : Node)
    (above : List Node) : PassM Unit := do
  let given ← lift (element.exprType >>= CType.asValue)
  if ← lift (given.agrees .void) then
    error decl aboveDecl "void value not ignored as it ought to be"
    return
  if 0 < target.depth && !target.sameExtents given then
    let what := if 0 < given.depth then "from incompatible pointer type" else "makes pointer without a cast"
    warning element s!"initialization {what}, expected '{target.render}' but got '{given.render}'"
    return
  if !(← lift (target.agrees given)) then
    error element above
      s!"incompatible types when initializing type '{target.render}' using type '{given.render}'"
    return
  if !(← lift (target.keepsConst given)) then
    warning element
      s!"initialization discards 'const' qualifier, expected '{target.render}' but got '{given.render}'"

/-- What is declared, with what its initialiser is checked against. -/
structure Target where
  decl : Node
  above : List Node
  name : String
  type : CType
  list : Node

namespace Target

/-- The initialiser is a string that fills an array of characters. -/
def isFilledByString (t : Target) : Except Fault Bool := do
  match t.list.children with
  | [] => throw .outOfRange
  | first :: _ => if first.kind.isString then t.type.agrees .string else return false

def elementType (t : Target) (level : Nat) (element : Node) : CType :=
  if t.list.kind == .initializerList true || !element.kind.isString then
    { t.type with layers := t.type.layers.take (t.type.layers.length - level) }
  else t.type

end Target

def checkElements (t : Target) (level : Nat) (above : List Node) : List Node → PassM Unit
  | [] => pure ()
  | element :: rest => do
    if !(← lift t.isFilledByString) then
      initializerOk t.decl t.above (t.elementType level element) element above
    checkElements t level above rest

def wrap (list element : Node) : PassM Node := do
  if element.kind.isInitializerList then return element
  let s ← get
  set { s with nextId := s.nextId + 1 }
  return .mk s.nextId (.initializerList false) list.origin [element]

def checkFirst (check : Node → PassM Node) : Nat → List Node → PassM (List Node)
  | 0, rest => pure rest
  | _, [] => pure []
  | count + 1, element :: rest => do
    let element ← check element
    let rest ← checkFirst check count rest
    return element :: rest

/-- Checks the list that initialises an array at a level of nesting, with some levels below it. -/
def checkList (t : Target) : Nat → Nat → List Node → Node → PassM Node
  | below, level, above, list => do
    let extents := t.type.extents.toArray
    let extent ← lift (entryAt extents (-Int.ofNat level))
    let count := Int.ofNat list.children.length
    if extent.number < count then
      warning list (s!"excess elements in array initializer of '{t.name}', expected "
        ++ extentWord extent ++ s!" elements but got {count}")
    match below with
    | 0 =>
      checkElements t level (list :: above) list.children
      return list
    | below + 1 =>
      let covered := (min extent.number count).toNat
      let children ← checkFirst (fun element => do
        let inner ← wrap list element
        checkList t below (level + 1) (list :: above) inner) covered list.children
      return list.withChildren children

end MiniC.Check
