import MiniC.Fault

/-!
# Data

A `Datum` is a value as data without types: what scripts are given, and what reports consist of. Lists and tuples are
rows, what is not there is nothing, and a fault is a record of its cause and its message.
-/

namespace MiniC

/-- A value as data without types. -/
inductive Datum where
  | nothing
  | flag (value : Bool)
  | number (digits : Int) (places : Nat)
  | word (text : String)
  /-- A text by its code points, lone surrogates among them. -/
  | codes (points : List Nat)
  | cause (fault : Fault)
  | row (parts : List Datum)
  | record (fields : List (String × Datum))
  deriving Inhabited

class ToDatum (α : Type) where
  datum : α → Datum

export ToDatum (datum)

namespace Datum

def get? : Datum → String → Option Datum
  | record fields, key => fields.lookup key
  | _, _ => none

def extend : Datum → List (String × Datum) → Datum
  | record fields, more => record (fields ++ more)
  | _, more => record more

def bare (e : Fault) : Datum := record [("error", cause e)]

def fault (e : Fault) : Datum := (bare e).extend (e.message?.map fun m => ("message", word m)).toList

/-- Neither nothing, nor no, nor zero, nor empty. -/
def isTrue : Datum → Bool
  | nothing | flag false | number 0 _ | word "" | codes [] | row [] | record [] => false
  | _ => true

mutual
def render : Datum → String
  | word text => text
  | number n _ => toString n
  | row parts => "[" ++ ", ".intercalate (renderParts parts) ++ "]"
  | _ => ""

def renderParts : List Datum → List String
  | [] => []
  | word text :: rest => ("'" ++ text ++ "'") :: renderParts rest
  | part :: rest => render part :: renderParts rest
end

end Datum

/-- A tuple is written as one row. -/
class HasParts (α : Type) where
  parts : α → List Datum

variable {α β : Type}

instance : ToDatum Datum := ⟨id⟩
instance : ToDatum Unit := ⟨fun _ => .nothing⟩
instance : ToDatum Bool := ⟨.flag⟩
instance : ToDatum Int := ⟨fun n => .number n 0⟩
instance : ToDatum Nat := ⟨fun n => .number (Int.ofNat n) 0⟩
instance : ToDatum String := ⟨.word⟩
instance [ToDatum α] : ToDatum (Option α) := ⟨fun a => a.elim .nothing datum⟩
instance [ToDatum α] : ToDatum (List α) := ⟨fun as => .row (as.map datum)⟩
instance [ToDatum α] : ToDatum (Array α) := ⟨fun as => .row (as.toList.map datum)⟩
instance (priority := low) [ToDatum α] : HasParts α := ⟨fun a => [datum a]⟩
instance [ToDatum α] [HasParts β] : HasParts (α × β) := ⟨fun p => datum p.1 :: HasParts.parts p.2⟩
instance [ToDatum α] [HasParts β] : ToDatum (α × β) := ⟨fun p => .row (HasParts.parts p)⟩
instance [ToDatum α] : ToDatum (Except Datum α) := ⟨fun
  | .ok a => datum a
  | .error e => e⟩
instance [ToDatum α] : ToDatum (Except Fault α) := ⟨fun
  | .ok a => datum a
  | .error e => .fault e⟩

def field [ToDatum α] (name : String) (a : α) : String × Datum := (name, datum a)

/-- The lines of a text; a break at its end adds none. -/
def listing (text : String) : List String :=
  let lines := text.splitOn "\n"
  if lines.getLast? = some "" then lines.dropLast else lines

def printedLines (texts : Array String) : List String := texts.toList.flatMap (·.splitOn "\n")

end MiniC
