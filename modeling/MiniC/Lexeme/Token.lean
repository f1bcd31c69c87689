import MiniC.Lexeme.CharStream

/-!
# Tokens

A token is a piece of the text with its type, its place and the channel it is sent on. Tokens that were
made up, and not read, have no place.
-/

namespace MiniC

/-- The text with line breaks, returns and tabs written out. -/
def escapeBreaks (text : String) : String :=
  String.join (text.toList.map fun c =>
    if c = '\n' then "\\n" else if c = '\r' then "\\r" else if c = '\t' then "\\t" else c.toString)

/-- A character with line breaks, returns and tabs written out; a longer text is left as it is. -/
def escapeChar (text : String) : Except Fault String :=
  match text.toList with
  | [] => throw .outOfRange
  | [_] => pure (escapeBreaks text)
  | _ => pure text

/-- The text with line breaks, returns, tabs and blanks written out. -/
def escapeBlanks (text : String) : String :=
  escapeBreaks (text.map fun c => if c = ' ' then Char.ofNat 0xB7 else c)

structure Token where
  type : Int
  text : Option String
  channel : Int := 0
  start : Int := -1
  stop : Int := -1
  /-- The position among the tokens of a stream, or -1. -/
  index : Int := -1
  line : Option Int := none
  column : Int := -1
  deriving Inhabited, Repr, DecidableEq

namespace Token

/-- The type of the token that ends the input. -/
def eof : Int := -1

/-- The channel that a parser reads. -/
def defaultChannel : Int := 0

/-- The channel of tokens that a parser does not see. -/
def hiddenChannel : Int := 1

/-- The text that stands between two places of a stream; behind its end there is only the end. -/
def textOf (input : CharStream) (start stop : Int) : String :=
  if start < input.size ∧ stop < input.size then input.textBetween start stop else "<EOF>"

def lineText : Option Int → String
  | some n => toString n
  | none => "None"

def render (t : Token) : String :=
  let text := match t.text with
    | some text => escapeBreaks text
    | none => "<no text>"
  let channel := if t.channel > 0 then ",channel=" ++ toString t.channel else ""
  s!"[@{t.index},{t.start}:{t.stop}='{text}',<{t.type}>{channel},{lineText t.line}:{t.column}]"

def display (t : Token) : String :=
  let text := match t.text with
    | some text => text
    | none => if t.type = eof then "<EOF>" else s!"<{t.type}>"
  "'" ++ escapeBreaks text ++ "'"

end Token

def displayToken : Option Token → String
  | some t => t.display
  | none => "<no token>"

end MiniC
