import MiniC.Place

/-!
# Diagnostics

A diagnostic is an error or a warning about a place in the source. `report` writes them sorted by place, each
with the line of the source and a mark below the column.
-/

namespace MiniC

structure Diagnostic where
  message : String
  line : Option Int
  column : Option Int
  isWarning : Bool
  deriving DecidableEq, Repr, Inhabited

namespace Diagnostic

def error (message : String) (line column : Option Int) : Diagnostic := ⟨message, line, column, false⟩

def warning (message : String) (line column : Option Int) : Diagnostic := ⟨message, line, column, true⟩

def errorCount (ds : List Diagnostic) : Nat := ds.countP fun d => !d.isWarning

def warningCount (ds : List Diagnostic) : Nat := ds.countP fun d => d.isWarning

/-- The lines of a source, which end at a line feed, a return, or both. -/
def splitLines : List Char → List Char → List (List Char)
  | line, [] => if line.isEmpty then [] else [line.reverse]
  | line, '\r' :: '\n' :: rest => line.reverse :: splitLines [] rest
  | line, '\r' :: rest => line.reverse :: splitLines [] rest
  | line, '\n' :: rest => line.reverse :: splitLines [] rest
  | line, c :: rest => splitLines (c :: line) rest

/-- The lines of a source; a mark of the byte order in front does not count. -/
def sourceLines (source : String) : Array (List Char) :=
  let cs := match source.toList with
    | c :: rest => if c.toNat = 0xFEFF then rest else c :: rest
    | [] => []
  (splitLines [] cs).toArray

/-- A line of the source by its number; there is nothing on a line that is not there. -/
def sourceLine (lines : Array (List Char)) (n : Int) : List Char :=
  if 1 ≤ n then (lines[(n - 1).toNat]?).getD [] else []

def render (file : String) (lines : Array (List Char)) (d : Diagnostic) : String :=
  match d.line, d.column with
  | some line, some column =>
    let sort := if d.isWarning then "warning" else "error"
    let shown := column + 1
    let text := sourceLine lines line
    let before := (text.take (boundAt text.length column)).map fun c => if c = '\t' then '\t' else ' '
    s!"{file}:{line}:{shown}: {sort}: {d.message}\n"
      ++ " " ++ String.ofList text ++ "\n"
      ++ " " ++ String.ofList before ++ "^\n"
  | _, _ => s!"Error: {d.message}\n"

/-- The order of two optional numbers, if they can be compared. -/
def compareNumbers? : Option Int → Option Int → Option Ordering
  | some a, some b => some (compare a b)
  | none, none => some .eq
  | _, _ => none

def comparePlaces? (a b : Diagnostic) : Option Ordering :=
  match compareNumbers? a.line b.line with
  | some .eq => compareNumbers? a.column b.column
  | other => other

/-- The diagnostics in the order of their places; those at one place stay in the order they came. -/
def sorted (ds : List Diagnostic) : Except Fault (List Diagnostic) :=
  if ds.all fun a => ds.all fun b => (comparePlaces? a b).isSome then
    pure (ds.mergeSort fun a b => comparePlaces? a b != some .gt)
  else throw .unsuitable

def renderAll (file : String) (lines : Array (List Char)) (ds : List Diagnostic) : String :=
  String.join (ds.map (render file lines))

def report (file source : String) (ds : List Diagnostic) : Except Fault String := do
  let ds ← sorted ds
  return renderAll file (sourceLines source) ds

end Diagnostic

end MiniC
