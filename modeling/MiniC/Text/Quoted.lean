import MiniC.Text.CharClass

/-!
# Quoted texts

A text is written in quotes, with escapes for what cannot be printed. Apostrophes are the quotes unless the
text holds one and no double quote.
-/

namespace MiniC

namespace Quoted

def hex (width n : Nat) : String :=
  let digits := Nat.toDigits 16 n
  String.ofList (List.replicate (width - digits.length) '0' ++ digits)

def escape (quote : Nat) (c : Nat) : String :=
  if c = quote ∨ c = 92 then "\\" ++ (Char.ofNat c).toString
  else if c = 10 then "\\n"
  else if c = 13 then "\\r"
  else if c = 9 then "\\t"
  else if c < 32 ∨ c = 127 then "\\x" ++ hex 2 c
  else if c < 127 then (Char.ofNat c).toString
  else if CharClass.isPrintable c then (Char.ofNat c).toString
  else if c < 256 then "\\x" ++ hex 2 c
  else if c < 65536 then "\\u" ++ hex 4 c
  else "\\U" ++ hex 8 c

def encode (codes : List Nat) : String :=
  let quote := if codes.contains 39 && !codes.contains 34 then 34 else 39
  let mark := (Char.ofNat quote).toString
  mark ++ String.join (codes.map (escape quote)) ++ mark

def text (s : String) : String := encode (s.toList.map Char.toNat)

end Quoted

end MiniC
