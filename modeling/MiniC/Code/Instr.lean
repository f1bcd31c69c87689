import MiniC.Syntax.Node
import MiniC.Text.Quoted

/-!
# Machine code

The code of the stack machine is a list of lines: instructions, labels and blanks. An instruction on values
names the type of the cells it works on.
-/

namespace MiniC

inductive Cell where
  | address
  | int
  | real
  | char
  | bool
  deriving DecidableEq, Repr, Inhabited

def Cell.letter : Cell → String
  | address => "a"
  | int => "i"
  | real => "r"
  | char => "c"
  | bool => "b"

inductive LabelUse where
  | elseBranch | afterIf
  | forIteration | forCondition | forAfter
  | whileCondition | whileAfter
  | doWhileCondition | doWhileAfter
  | digitLoop | afterDigitLoop | padLoop | afterPadLoop | noPadding
  | countLoop | afterCountLoop | paddingLoop | afterPaddingLoop
  | outLoop | afterOutLoop
  | scanLoop | scanDone
  deriving DecidableEq, Repr, Inhabited

def LabelUse.word : LabelUse → String
  | elseBranch => "else"
  | afterIf => "after_if"
  | forIteration => "for_iteration"
  | forCondition => "for_condition"
  | forAfter => "for_after"
  | whileCondition => "while_condition"
  | whileAfter => "while_after"
  | doWhileCondition => "do_while_condition"
  | doWhileAfter => "do_while_after"
  | digitLoop => "loop1"
  | afterDigitLoop => "after_loop1"
  | padLoop => "loop2"
  | afterPadLoop => "after_loop2"
  | noPadding => "no_padding"
  | countLoop => "count_loop"
  | afterCountLoop => "after_count_loop"
  | paddingLoop => "padding_loop"
  | afterPaddingLoop => "after_padding_loop"
  | outLoop => "out_loop"
  | afterOutLoop => "after_out_loop"
  | scanLoop => "scanf_string_loop"
  | scanDone => "scanf_string_done"

inductive Label where
  | function (name : String)
  | numbered (n : Nat) (use : LabelUse)
  deriving DecidableEq, Repr, Inhabited

def Label.render : Label → String
  | function name => "function_" ++ name
  | numbered n use => "l" ++ toString n ++ "_" ++ use.word

inductive Constant where
  | number (n : Int)
  | truth
  /-- A real number with six places. -/
  | places (x : Binary64)
  /-- A real number in the fewest digits. -/
  | digits (x : Binary64)
  /-- A character; an apostrophe stands between apostrophes. -/
  | char (code : Nat)
  /-- A character in quotes; an apostrophe stands between double quotes. -/
  | quoted (code : Nat)
  /-- What is written in the source. -/
  | written (text : String)
  deriving DecidableEq, Repr, Inhabited

def Constant.render : Constant → String
  | number n => toString n
  | truth => "t"
  | places x => x.fixed 6
  | digits x => x.shortest
  | char code => if code = 39 then "'''" else Quoted.encode [code]
  | quoted code => Quoted.encode [code]
  | written text => text

inductive MachineOp where
  | add
  | sub
  | mul
  | div
  deriving DecidableEq, Repr, Inhabited

def MachineOp.word : MachineOp → String
  | add => "add"
  | sub => "sub"
  | mul => "mul"
  | div => "div"

def compareWord : CompareOp → String
  | .lt => "les"
  | .gt => "grt"
  | .le => "leq"
  | .ge => "geq"
  | .eq => "equ"
  | .ne => "neq"

/-- An instruction. A level is the number of frames to go outwards; there is none for a variable that is in
no scope any more. -/
inductive Instr where
  | ldc (cell : Cell) (c : Constant)
  | lda (level : Option Int) (offset : Int)
  | lod (cell : Cell) (level : Option Int) (offset : Int)
  | str (cell : Cell) (level : Int) (offset : Int)
  | sto (cell : Cell)
  | ind (cell : Cell)
  | dpl (cell : Cell)
  | ssp (n : Int)
  | mst (level : Int)
  | cup (count : Nat) (target : Label)
  | hlt
  | retp
  | retf
  | ujp (target : Label)
  | fjp (target : Label)
  | conv (source target : Cell)
  | arith (op : MachineOp) (cell : Cell)
  | neg (cell : Cell)
  | logic (op : LogicOp)
  | not
  | compare (op : CompareOp) (cell : Cell)
  | inc (cell : Cell) (n : Int)
  | dec (cell : Cell) (n : Int)
  | chk (low high : Int)
  | ixa (size : Int)
  | input (cell : Cell)
  | output (cell : Cell)
  deriving DecidableEq, Repr, Inhabited

def levelWord : Option Int → String
  | some n => toString n
  | none => "None"

namespace Instr

def render : Instr → String
  | ldc cell c => "ldc " ++ cell.letter ++ " " ++ c.render
  | lda level offset => "lda " ++ levelWord level ++ " " ++ toString offset
  | lod cell level offset => "lod " ++ cell.letter ++ " " ++ levelWord level ++ " " ++ toString offset
  | str cell level offset => "str " ++ cell.letter ++ " " ++ toString level ++ " " ++ toString offset
  | sto cell => "sto " ++ cell.letter
  | ind cell => "ind " ++ cell.letter
  | dpl cell => "dpl " ++ cell.letter
  | ssp n => "ssp " ++ toString n
  | mst level => "mst " ++ toString level
  | cup count target => "cup " ++ toString count ++ " " ++ target.render
  | hlt => "hlt"
  | retp => "retp"
  | retf => "retf"
  | ujp target => "ujp " ++ target.render
  | fjp target => "fjp " ++ target.render
  | conv source target => "conv " ++ source.letter ++ " " ++ target.letter
  | arith op cell => op.word ++ " " ++ cell.letter
  | neg cell => "neg " ++ cell.letter
  | logic op => op.word
  | not => "not"
  | compare op cell => compareWord op ++ " " ++ cell.letter
  | inc cell n => "inc " ++ cell.letter ++ " " ++ toString n
  | dec cell n => "dec " ++ cell.letter ++ " " ++ toString n
  | chk low high => "chk " ++ toString low ++ " " ++ toString high
  | ixa size => "ixa " ++ toString size
  | input cell => "in " ++ cell.letter
  | output cell => "out " ++ cell.letter

end Instr

inductive Line where
  | instr (i : Instr)
  | label (l : Label)
  | blank
  deriving DecidableEq, Repr, Inhabited

def Line.render : Line → String
  | instr i => i.render ++ "\n"
  | label l => l.render ++ ":\n"
  | blank => "\n"

def codeText (code : List Line) : String := code.foldl (fun text line => text ++ line.render) ""

end MiniC
