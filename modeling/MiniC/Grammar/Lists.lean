import MiniC.Grammar.Basic

/-!
# Bracketed lists

Lists in brackets, of numbers and lists, with commas between them.
-/

namespace MiniC.Grammar.Lists

def writtenLexer : WrittenNetwork where
  tokenTypes := some ((List.range 5).map (· + 1))
  lastType := 5
  rules :=
    "1+ 1 s0+2 -1 +1 -2|+1 x
     2 0 a44 x
     2 0 a40 x
     2 0 a41 x
     1+2 1 s1+2 -1 +1 -2|+1 +1 c x"
  sets := [[48, 57], [9, 10, 13, 13, 32, 32]]
  actions := [[6, 0, 0]]

def storedLexer : Array Nat := writtenLexer.stored

def writtenNet : WrittenNetwork where
  lastType := 5
  rules :=
    "5 0 a3 r1 a4 c x
     3*? 8 r2+5 a2 r1+2 -2 +3 -2|+1 +3 -2 -8|+1 x
     2? 2 r3+3 r0+2 -2|-1 x
     3 0 a1 x"

def storedNet : Array Nat := writtenNet.stored

def lexer : LexerSpec := ⟨networkOf storedLexer, none⟩

def net : Network := networkOf storedNet

def choices : Choices := choicesOf net

def vocabulary : Vocabulary where
  literal :=
    #["<INVALID>", "<INVALID>", "','", "'('", "')'"]
  symbolic :=
    #["<INVALID>", "NUMBER", "COMMA", "LBRACKET", "RBRACKET", "WS"]

def ruleNames : Array String :=
  #["lst", "seq", "item", "number"]

def accessors : Array (List Accessor) := accessorsIn
  "LBRACKET seq RBRACKET
   item COMMA* seq*
   number lst
   NUMBER"

def labels : List AltLabel := []

/-- A list that was read to its end is announced with the place of its first token. -/
def announce (t : Token) : String := s!"another list {t.line.getD 0}:{t.column}"


end MiniC.Grammar.Lists

namespace MiniC

def Grammar.lists : Grammar where
  lexer := Grammar.Lists.lexer
  net := Grammar.Lists.net
  choices := Grammar.Lists.choices
  storedLexer := Grammar.Lists.storedLexer
  storedNet := Grammar.Lists.storedNet
  vocabulary := Grammar.Lists.vocabulary
  ruleNames := Grammar.Lists.ruleNames
  accessors := Grammar.Lists.accessors
  labels := Grammar.Lists.labels
  announce := some Grammar.Lists.announce

end MiniC
