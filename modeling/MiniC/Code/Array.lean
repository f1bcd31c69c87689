import MiniC.Code.Emit

/-!
# Code for declared objects

A declared object is filled when its declaration is reached: with its initialiser, with the characters of a
string, with the elements of a list, or with zeros.
-/

namespace MiniC.Emit

def outerCount (t : CType) : Except Fault Nat := t.outermost.map fun layer => layer.extent.number.toNat

def storeConstant (cell : Cell) (c : Constant) (address : Int) : EmitM Unit :=
  instrs [.ldc cell c, .str cell 0 address]

/-- Stores zeros in the cells of an array with some dimensions. -/
def clearArray : Nat → CType → Int → EmitM Unit
  | 0, _, _ => pure ()
  | dims + 1, type, address => do
    let element := type.pointee
    let count ← lift (outerCount type)
    let size ← lift element.size
    for i in List.range count do
      match dims with
      | 0 =>
        let cell ← lift (cellOf element)
        let zero ← lift (zeroOf element)
        storeConstant cell zero (address + Int.ofNat i)
      | _ + 1 => clearArray dims element (address + Int.ofNat i * size)

/-- Stores the characters of a string, with the end of it in the cells that are left. -/
def storeString (count : Nat) (address : Int) (codes : List Nat) : EmitM Unit := do
  let codes := codes.toArray
  for i in List.range count do
    let c := match codes[i]? with
      | some code => Constant.quoted code
      | none => .number 27
    instrs [.lda (some 0) (address + Int.ofNat i), .ldc .char c, .sto .char]

def literal? : Kind → Option Constant
  | .integer value => some (.number value)
  | .float value => some (.digits value)
  | .character text => some (.written text)
  | .string raw _ => some (.written raw)
  | _ => none

def storeElement (setting : Setting) (type : CType) (element : Option Coder) (address : Int) : EmitM Unit := do
  let cell ← lift (cellOf type)
  match element with
  | none =>
    let zero ← lift (zeroOf type)
    storeConstant cell zero address
  | some c =>
    match literal? c.node.kind with
    | some value => storeConstant cell value address
    | none =>
      c.run { setting with address := true }
      instr (.str cell 0 address)

/-- Stores the elements of an innermost list. The type is that of the array for the first element, and loses
the layers of the array and one more with each element. -/
def storeRow (setting : Setting) (level : Nat) : Nat → CType → List Coder → Int → EmitM Unit
  | 0, _, _, _ => pure ()
  | count + 1, type, elements, address => do
    let type := { type with layers := type.layers.take (type.layers.length - (level + 1)) }
    storeElement setting type elements.head? address
    storeRow setting level count type elements.tail (address + 1)

/-- Stores the elements of a list at a level of nesting, with some levels below it. -/
def storeList (type : CType) : Nat → Nat → Setting → List Coder → Int → EmitM Unit
  | below, level, setting, elements, address => do
    let extents := type.extents.toArray
    let extent ← lift (entryAt extents (-Int.ofNat level))
    let count := extent.number.toNat
    match below with
    | 0 => storeRow setting level count type elements address
    | below + 1 =>
      let size ← lift type.size
      for i in List.range count do
        match elements[i]? with
        | none => storeList type below (level + 1) setting [] (address + Int.ofNat i * size)
        | some c =>
          let step ← lift (entryAt extents (-Int.ofNat (level + 1)))
          storeList type below (level + 1) { setting with above := c.node :: setting.above } c.children
            (address + Int.ofNat i * step.number)

def stringCodes? (c : Coder) : Option (List Nat) :=
  match c.node.kind with
  | .string _ codes => some codes
  | _ => none

def declarator (n : Node) (head : DeclaratorHead) (cs : List Coder) (setting : Setting) : EmitM Unit := do
  let type ← lift (Node.declaratorType (setting.above.head?.map Node.kind) head)
  let inside := { setting with above := n :: setting.above }
  let isArray ← lift type.isArray
  let store : EmitM Unit := do
    let cell ← lift (cellOf type)
    let offset ← offsetOf head.symbol
    instr (.str cell 0 offset)
  match (cs.filter (·.node.kind.isInitializerList)).getLast? with
  | some list =>
    let codes? := list.children.head?.bind stringCodes?
    let isString ← lift (type.agrees .string)
    match isString, codes? with
    | true, some codes =>
      let count ← lift (outerCount type)
      let offset ← offsetOf head.symbol
      storeString count offset codes
    | _, _ =>
      if isArray then
        let offset ← offsetOf head.symbol
        let dims := (type.dimensions?.getD []).length
        storeList type (dims - 1) 1 { inside with above := list.node :: inside.above } list.children offset
      else
        list.run inside
        store
  | none =>
    if isArray then
      let offset ← offsetOf head.symbol
      clearArray (type.dimensions?.getD []).length type offset
    else
      let zero ← lift (zeroOf type)
      let cell ← lift (cellOf type)
      instr (.ldc cell zero)
      store

end MiniC.Emit
