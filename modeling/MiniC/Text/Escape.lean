import MiniC.Fault
import MiniC.Text.CharNames

/-!
# Escapes in literals

What stands between the quotes of a string literal is read byte by byte: a backslash starts an escape, any
other byte stands for the character with its code. The result is a list of codes, since an escape can name
a code that is no character. Unknown escapes stand for themselves, unfinished ones are refused.
-/

namespace MiniC

namespace Escape

def bytesOf (text : String) : List Nat := text.toUTF8.toList.map UInt8.toNat

def refuse (first stop : Nat) (reason : String) : Fault :=
  let which :=
    if stop = first + 1 then s!"byte 0x5c in position {first}"
    else
      let last := stop - 1
      s!"bytes in position {first}-{last}"
  .undecodable ("'unicodeescape' codec can't decode " ++ which ++ ": " ++ reason)

def octalDigit? (b : Nat) : Option Nat := if 48 ≤ b ∧ b < 56 then some (b - 48) else none

def hexDigit? (b : Nat) : Option Nat :=
  if 48 ≤ b ∧ b < 58 then some (b - 48)
  else if 97 ≤ b ∧ b < 103 then some (b - 87)
  else if 65 ≤ b ∧ b < 71 then some (b - 55)
  else none

/-- The longest run of at most so many digits, its value and what follows. -/
def digitRun (digit? : Nat → Option Nat) (base : Nat) : Nat → Nat → List Nat → Nat × Nat × List Nat
  | 0, value, rest => (0, value, rest)
  | _ + 1, value, [] => (0, value, [])
  | limit + 1, value, b :: rest =>
    match digit? b with
    | some d =>
      let (count, value, rest) := digitRun digit? base limit (value * base + d) rest
      (count + 1, value, rest)
    | none => (0, value, b :: rest)

def maxCode : Nat := 0x10FFFF

def hexEscape (first : Nat) (count : Nat) (reason : String) (rest : List Nat) :
    Except Fault (Nat × List Nat) :=
  let (read, value, after) := digitRun hexDigit? 16 count 0 rest
  let stop := first + 2 + read
  if read < count then throw (refuse first stop reason)
  else if maxCode < value then throw (refuse first stop "illegal Unicode character")
  else pure (value, after)

def nameEscape (first : Nat) (rest : List Nat) : Except Fault (Nat × List Nat) :=
  let malformed := "malformed \\N character escape"
  match rest with
  | 123 :: inner =>
    let name := inner.takeWhile (· != 125)
    match inner.drop name.length with
    | [] => throw (refuse first (first + 3 + name.length) malformed)
    | _ :: after =>
      if name.isEmpty then throw (refuse first (first + 3) malformed)
      else
        match CharNames.code? (String.ofList (name.map Char.ofNat)) with
        | some code => pure (code, after)
        | none => throw (refuse first (first + 4 + name.length) "unknown Unicode character name")
  | _ => throw (refuse first (first + 2) malformed)

def letterCode? (b : Nat) : Option Nat :=
  match Char.ofNat b with
  | '\\' => some 92
  | '\'' => some 39
  | '"' => some 34
  | 'b' => some 8
  | 'f' => some 12
  | 't' => some 9
  | 'n' => some 10
  | 'r' => some 13
  | 'v' => some 11
  | 'a' => some 7
  | _ => none

/-- Reads what follows a backslash at a position: the codes it stands for, and what follows. -/
def afterBackslash (first : Nat) : List Nat → Except Fault (List Nat × List Nat)
  | [] => throw (refuse first (first + 1) "\\ at end of string")
  | b :: rest =>
    if b = 10 then pure ([], rest)
    else
      match letterCode? b with
      | some code => pure ([code], rest)
      | none =>
        match Char.ofNat b with
        | 'x' => one (hexEscape first 2 "truncated \\xXX escape" rest)
        | 'u' => one (hexEscape first 4 "truncated \\uXXXX escape" rest)
        | 'U' => one (hexEscape first 8 "truncated \\UXXXXXXXX escape" rest)
        | 'N' => one (nameEscape first rest)
        | _ =>
          match octalDigit? b with
          | some d =>
            let (_, value, after) := digitRun octalDigit? 8 2 d rest
            pure ([value], after)
          | none => pure ([92, b], rest)
where
  one (result : Except Fault (Nat × List Nat)) : Except Fault (List Nat × List Nat) :=
    result.map fun (code, rest) => ([code], rest)

/-- Reads bytes from a position on, in at most so many steps. -/
def decodeFrom : Nat → Nat → List Nat → Except Fault (List Nat)
  | _, _, [] => pure []
  | 0, _, _ => throw .exhausted
  | fuel + 1, position, b :: rest =>
    if b = 92 then do
      let (codes, after) ← afterBackslash position rest
      let more ← decodeFrom fuel (position + 1 + (rest.length - after.length)) after
      return codes ++ more
    else do
      let more ← decodeFrom fuel (position + 1) rest
      return b :: more

def decode (text : String) : Except Fault (List Nat) :=
  let bytes := bytesOf text
  decodeFrom bytes.length 0 bytes

end Escape

end MiniC
