/-!
# Numbers in texts

Tables of numbers are stored as texts; `numbersOf` reads them.
-/

namespace MiniC

/-- The numbers written in a text, with blanks between them. -/
def numbersOf (text : String) : Array Nat :=
  let step : Array Nat × Option Nat → Char → Array Nat × Option Nat := fun (out, current) c =>
    if c.isDigit then (out, some (current.getD 0 * 10 + (c.toNat - '0'.toNat)))
    else
      match current with
      | some n => (out.push n, none)
      | none => (out, none)
  let (out, current) := text.foldl step (#[], none)
  match current with
  | some n => out.push n
  | none => out

end MiniC
