import MiniC.Scope.Pass

/-!
# Formats

The format of an input or output function is a string literal with specifiers: a percent sign, a width, and
a letter for the type of the argument. `check` compares them with the arguments and cuts the format into
pieces.
-/

namespace MiniC.Format

open Pass

structure Specifier where
  first : Nat
  stop : Nat
  width : List Char
  code : Char
  deriving DecidableEq, Repr

def isCode (c : Char) : Bool := ('a' ≤ c && c ≤ 'z') || c == '%'

/-- The specifier after a percent sign, and what follows it. -/
def specifierAt? (first : Nat) (cs : List Char) : Option (Specifier × List Char) :=
  let digits := cs.takeWhile Char.isDigit
  let rest := cs.drop digits.length
  let places := match rest with
    | '.' :: more => '.' :: more.takeWhile Char.isDigit
    | _ => []
  match rest.drop places.length with
  | code :: after =>
    if isCode code then
      let width := digits ++ places
      some (⟨first, first + width.length + 2, width, code⟩, after)
    else none
  | [] => none

/-- The specifiers of a text, from a place on, in at most so many steps. -/
def specifiersFrom : Nat → Nat → List Char → List Specifier
  | 0, _, _ => []
  | _ + 1, _, [] => []
  | fuel + 1, place, c :: cs =>
    if c = '%' then
      match specifierAt? place cs with
      | some (s, after) => s :: specifiersFrom fuel s.stop after
      | none => specifiersFrom fuel (place + 1) cs
    else specifiersFrom fuel (place + 1) cs

def specifiers (format : String) : List Specifier :=
  let cs := format.toList
  specifiersFrom cs.length 0 cs

def typeOfCode? : Char → Option CType
  | 'd' => some .int
  | 'i' => some .int
  | 'f' => some .float
  | 'c' => some .char
  | 's' => some ⟨.char, true, [⟨.scalar, false⟩, ⟨.scalar, false⟩]⟩
  | _ => none

/-- The number before the point of a width; without a width it is 0. -/
def widthOf (width : List Char) : Except Fault Int :=
  let digits := width.takeWhile (· != '.')
  if width.isEmpty then pure 0
  else if digits.isEmpty then throw .malformed
  else pure (Binary64.digitsValue digits)

structure Cut where
  pieces : Array Piece := #[]
  start : Nat := 0

def textBetween (format : List Char) (first stop : Nat) : String :=
  String.ofList ((format.take stop).drop first)

def argumentOk (call : Node) (above : List Node) (reading : Bool) (s : Specifier) (type : CType)
    (number : Nat) (argument : Node) : PassM Bool := do
  let expected := if reading && s.code != 's' then { type with layers := type.layers ++ [⟨.scalar, false⟩] }
    else type
  let given ← lift (argument.exprType >>= CType.asValue)
  let code := s.code
  if !(← lift (expected.agrees given)) then
    error call above (s!"format '{code}' expects argument of type '{expected.render}', but argument {number}"
      ++ s!" has type '{given.render}'")
    return false
  if reading && !(← lift (expected.keepsConst given)) then
    warning call s!"writing into constant object (argument {number})"
  return true

/-- Checks the specifiers one after the other; `index` is the number of those before. -/
def checkSpecifiers (call : Node) (above : List Node) (reading : Bool) (format : List Char)
    (arguments : Array Node) : Nat → Cut → List Specifier → PassM Cut
  | _, cut, [] => pure cut
  | index, cut, s :: rest => do
    let cut := { cut with pieces := cut.pieces.push (.text (textBetween format cut.start s.first)) }
    let width ← lift (widthOf s.width)
    let code := s.code
    if code = '%' then return ← checkSpecifiers call above reading format arguments (index + 1) cut rest
    match typeOfCode? code with
    | none =>
      warning call s!"unknown format code '{code}'"
      checkSpecifiers call above reading format arguments (index + 1) cut rest
    | some type =>
      match arguments[index + 1]? with
      | none =>
        warning call s!"format '%{code}' expects a matching '{type.render}' argument"
        checkSpecifiers call above reading format arguments (index + 1) cut rest
      | some argument =>
        if ← argumentOk call above reading s type (index + 2) argument then
          let cut := { pieces := cut.pieces.push (.field width (index + 1)), start := s.stop }
          checkSpecifiers call above reading format arguments (index + 1) cut rest
        else checkSpecifiers call above reading format arguments (index + 1) cut rest

/-- Checks a call of an input or output function and gives the pieces of its format, unless the format is no
string literal. -/
def check (call : Node) (above : List Node) (name : String) (arguments : List Node) :
    PassM (Option (List Piece)) := do
  match arguments with
  | [] => throw .outOfRange
  | first :: _ =>
    match first.kind with
    | .string raw _ =>
      let format := raw.toList
      let found := specifiers raw
      let cut ← checkSpecifiers call above (name == "scanf") format arguments.toArray 0 {} found
      let pieces := cut.pieces.push (.text (textBetween format cut.start format.length))
      let expected := found.length
      let given := arguments.length - 1
      if expected < given then
        warning call s!"too many arguments for format (expected {expected}, have {given})"
      return some pieces.toList
    | _ =>
      error call above s!"argument 1 of function '{name}' should be a string literal"
      return none

end MiniC.Format
