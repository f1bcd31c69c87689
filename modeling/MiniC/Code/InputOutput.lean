import MiniC.Code.Emit
import MiniC.Text.Escape

/-!
# Code for input and output

Output goes through the pieces of a format: the characters of a text, and the values of arguments with blanks
in front to fill the width. Strings end with the character 27. The cells 0, 1 and 2 hold what is counted.
-/

namespace MiniC.Emit

def lines : List Line → EmitM Unit
  | [] => pure ()
  | l :: rest => do
    line l
    lines rest

def code (is : List Instr) : List Line := is.map Line.instr

def loadCell (n : Int) (cell : Cell) : List Instr := [.ldc .address (.number n), .ind cell]

/-- Adds one to the number in a cell, or takes it away. -/
def stepCell (n : Int) (step : Instr) : List Instr :=
  [.ldc .address (.number n), .ldc .address (.number n), .ind .int, step, .sto .int]

def setCell (n value : Int) : List Instr :=
  [.ldc .address (.number n), .ldc .int (.number value), .sto .int]

def blank : List Instr := [.ldc .char (.char 32), .output .char]

def outText : List Nat → EmitM Unit
  | [] => pure ()
  | c :: cs => do
    instrs [.ldc .char (.char c), .output .char]
    outText cs

/-- Repeats a body as long as a test holds; something may stand behind the label of the loop. -/
def repeated (again after : Label) (gap : List Line) (test body : List Instr) : List Line :=
  [.label again] ++ gap ++ code (test ++ [.fjp after] ++ body ++ [.ujp again]) ++ [.label after]

/-- Adds to cell 0 the number of digits of the number in cell 1 but for the last. -/
def countDigits (again after : Label) : List Line :=
  repeated again after [] (loadCell 1 .int ++ [.ldc .int (.number 9), .compare .gt .int])
    (stepCell 0 (.inc .int 1)
      ++ [.ldc .address (.number 1)] ++ loadCell 1 .int ++ [.ldc .int (.number 10), .arith .div .int, .sto .int])

/-- Puts in cell 0 how much a width is above the number there. -/
def excess (width : Int) : List Instr :=
  [.ldc .address (.number 0), .ldc .int (.number width)] ++ loadCell 0 .int ++ [.arith .sub .int, .sto .int]

/-- Writes blanks until the number in cell 1 has come up to that in cell 0. -/
def padUp (again after : Label) : List Line :=
  repeated again after [] (loadCell 1 .int ++ loadCell 0 .int ++ [.compare .lt .int])
    (blank ++ stepCell 1 (.inc .int 1))

/-- Stores a number and writes it behind blanks. The sign is counted first. -/
def paddedInt (width : Int) (digitLoop afterDigitLoop padLoop noPadding : Label) : List Line :=
  code ([.sto .int, .ldc .address (.number 1)] ++ loadCell 2 .int ++ [.sto .int]
      ++ setCell 0 1
      ++ loadCell 1 .int ++ [.ldc .int (.number 0), .compare .lt .int])
    ++ code [.fjp digitLoop]
    ++ code (stepCell 0 (.inc .int 1) ++ stepCell 1 (.neg .int))
    ++ countDigits digitLoop afterDigitLoop
    ++ code (excess width ++ setCell 1 0)
    ++ padUp padLoop noPadding
    ++ code (loadCell 2 .int ++ [.output .int])

/-- Writes a number behind blanks, so that both have a width. -/
def outPaddedInt (width : Int) (value : EmitM Unit) : EmitM Unit := do
  let digitLoop ← newLabel .digitLoop
  let afterDigitLoop ← newLabel .afterDigitLoop
  let padLoop ← newLabel .padLoop
  let _ ← newLabel .afterPadLoop
  let noPadding ← newLabel .noPadding
  instr (.ldc .address (.number 2))
  value
  lines (paddedInt width digitLoop afterDigitLoop padLoop noPadding)

/-- Adds to cell 0 the number of characters of a string, whose address and first character are on the stack. -/
def countChars (again after : Label) : List Line :=
  repeated again after [] [.ldc .char (.number 27), .compare .ne .char]
    (stepCell 0 (.inc .int 1) ++ [.inc .address 1, .dpl .address, .ind .char])

/-- Writes as many blanks as cell 0 tells. -/
def padDown (again after : Label) : List Line :=
  repeated again after [] (loadCell 0 .int ++ [.ldc .int (.number 0), .compare .gt .int])
    (blank ++ stepCell 0 (.dec .int 1))

/-- Counts the characters of the string at the address in cell 1 and writes the blanks in front of it. -/
def stringPadding (width : Int) (countLoop afterCountLoop paddingLoop afterPaddingLoop : Label) : List Line :=
  code ([.ldc .address (.number 2)] ++ loadCell 1 .address ++ [.dpl .address, .ind .char])
    ++ countChars countLoop afterCountLoop
    ++ code ([.sto .address] ++ excess width)
    ++ padDown paddingLoop afterPaddingLoop

def padString (width : Int) : EmitM (List Line) := do
  let countLoop ← newLabel .countLoop
  let afterCountLoop ← newLabel .afterCountLoop
  let paddingLoop ← newLabel .paddingLoop
  let afterPaddingLoop ← newLabel .afterPaddingLoop
  return stringPadding width countLoop afterCountLoop paddingLoop afterPaddingLoop

/-- Writes the characters of a string, whose address is on the stack. -/
def outChars (again after : Label) : List Line :=
  repeated again after [.blank] [.dpl .address, .ind .char, .ldc .char (.number 27), .compare .ne .char]
    [.dpl .address, .ind .char, .output .char, .inc .address 1]

/-- Stores the address of a string and writes the string behind what some lines write. -/
def paddedString (padding : List Line) (outLoop afterOutLoop : Label) : List Line :=
  code ([.sto .address] ++ setCell 0 0) ++ padding ++ code (loadCell 1 .address) ++ outChars outLoop afterOutLoop

def outStringAfter (padding : List Line) (value : EmitM Unit) : EmitM Unit := do
  let outLoop ← newLabel .outLoop
  let afterOutLoop ← newLabel .afterOutLoop
  instr (.ldc .address (.number 1))
  value
  lines (paddedString padding outLoop afterOutLoop)

def outString (width : Int) (value : EmitM Unit) : EmitM Unit := do
  let padding ← if 0 < width then padString width else pure []
  outStringAfter padding value

def blanks : Nat → EmitM Unit
  | 0 => pure ()
  | n + 1 => do
    instrs blank
    blanks n

def outArgument (setting : Setting) (width : Int) (c : Coder) : EmitM Unit := do
  let type ← lift (typeOf c)
  let value := c.run { setting with address := false }
  let isInt ← lift (type.agrees .int)
  if isInt && 0 < width then outPaddedInt width value
  else if ← lift (type.agrees .char) then
    blanks (width - 1).toNat
    c.run setting
    instr (.output .char)
  else
    let shown ← lift type.asValue
    let string ← lift (CType.string.asValue)
    if ← lift (shown.agrees string) then outString width value
    else if !(← lift (type.agrees .void)) then
      value
      let cell ← lift (cellOf type)
      instr (.output cell)

def outPieces (setting : Setting) (arguments : List Coder) : List Piece → EmitM Unit
  | [] => pure ()
  | .text raw :: rest => do
    let codes ← lift (Escape.decode raw)
    outText codes
    outPieces setting arguments rest
  | .field width i :: rest => do
    let c ← lift (nth arguments i)
    outArgument setting width c
    outPieces setting arguments rest

def inArgument (setting : Setting) (c : Coder) : EmitM Unit := do
  let type ← lift (typeOf c)
  let value := c.run { setting with address := false }
  if ← lift (type.agrees .string) then
    let scanLoop ← newLabel .scanLoop
    let scanDone ← newLabel .scanDone
    value
    lines ([.label scanLoop]
      ++ code [.dpl .address, .input .char, .sto .char, .dpl .address, .ind .char, .ldc .char (.number 27),
        .compare .ne .char, .fjp scanDone, .inc .address 1, .ujp scanLoop]
      ++ [.label scanDone])
  else
    value
    let cell ← lift (cellOf type.pointee)
    instrs [.input cell, .sto cell]

def inPieces (setting : Setting) (arguments : List Coder) : List Piece → EmitM Unit
  | [] => pure ()
  | .text _ :: rest => inPieces setting arguments rest
  | .field _ i :: rest => do
    let c ← lift (nth arguments i)
    inArgument setting c
    inPieces setting arguments rest

end MiniC.Emit
