import MiniC.Place

/-!
# Streams of characters

A text that is read one character after the other. `peek` looks ahead or back without moving, `advance`
moves by one, `seek` jumps. The position may be moved before the start of the text; there nothing can be
read.
-/

namespace MiniC

structure CharStream where
  chars : Array Char
  index : Int := 0
  deriving Inhabited, Repr, DecidableEq

namespace CharStream

def ofString (text : String) : CharStream := { chars := text.toList.toArray }

def size (s : CharStream) : Int := Int.ofNat s.chars.size

def toString (s : CharStream) : String := String.ofList s.chars.toList

/-- The code of the character at a place of the text, and -1 outside of the text. -/
def codeAt (s : CharStream) (i : Int) : Int :=
  match i with
  | .ofNat n =>
    match s.chars[n]? with
    | some c => Int.ofNat c.toNat
    | none => -1
  | .negSucc _ => -1

/-- The code of a character near the position: 1 is the next one, -1 the one before, and 0 none. -/
def peek (s : CharStream) (offset : Int) : Int :=
  if offset = 0 then 0
  else if offset < 0 then s.codeAt (s.index + offset)
  else s.codeAt (s.index + offset - 1)

def advance (s : CharStream) : Except Fault CharStream :=
  if s.index ≥ s.size then throw (.illegal "cannot consume EOF")
  else pure { s with index := s.index + 1 }

/-- Jumps to a place; a jump ahead stops at the end of the text. -/
def seek (s : CharStream) (i : Int) : CharStream :=
  { s with index := if i ≤ s.index then i else min i s.size }

def reset (s : CharStream) : CharStream := { s with index := 0 }

def textBetween (s : CharStream) (first last : Int) : String :=
  let last := if last ≥ s.size then s.size - 1 else last
  if first ≥ s.size then ""
  else String.ofList (cut s.chars first (last + 1)).toList

def charAt (s : CharStream) (i : Int) : String := if 0 ≤ i ∧ i < s.size then s.textBetween i i else ""

end CharStream

end MiniC
