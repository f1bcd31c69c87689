import MiniC.Grammar.Basic

/-!
# Nested lists

Nested lists of integers. Nothing is skipped between the tokens.
-/

namespace MiniC.Grammar.Nested

def writtenLexer : WrittenNetwork where
  tokenTypes := some ((List.range 4).map (· + 1))
  lastType := 4
  rules :=
    "2 0 a40 x
     2 0 a41 x
     2 0 a44 x
     1?1+ 1 s0+2 -1|+1 +2 s1+2 -1 +1 -2|+1 x"
  sets := [[39, 39], [48, 57]]

def storedLexer : Array Nat := writtenLexer.stored

def writtenNet : WrittenNetwork where
  lastType := 4
  rules :=
    "4 0 a1 r1 a2 x
     4*1? 10 r2+11 r2+5 a3 r2+2 -2 +3 -2|+1 +4 -2 +2 -10|-9|-1 x
     5?1 5 a1 r1 a2 +3 a4+2 -5|-1 x"

def storedNet : Array Nat := writtenNet.stored

def lexer : LexerSpec := ⟨networkOf storedLexer, none⟩

def net : Network := networkOf storedNet

def choices : Choices := choicesOf net

def vocabulary : Vocabulary where
  literal :=
    #["<INVALID>", "'('", "')'", "','"]
  symbolic :=
    #["<INVALID>", "<INVALID>", "<INVALID>", "<INVALID>", "INT"]

def ruleNames : Array String :=
  #["nstdlst", "lst", "itm"]

def accessors : Array (List Accessor) := accessorsIn
  "lst
   itm*
   lst INT"

def labels : List AltLabel := []


end MiniC.Grammar.Nested

namespace MiniC

def Grammar.nested : Grammar where
  lexer := Grammar.Nested.lexer
  net := Grammar.Nested.net
  choices := Grammar.Nested.choices
  storedLexer := Grammar.Nested.storedLexer
  storedNet := Grammar.Nested.storedNet
  vocabulary := Grammar.Nested.vocabulary
  ruleNames := Grammar.Nested.ruleNames
  accessors := Grammar.Nested.accessors
  labels := Grammar.Nested.labels
  announce := none

end MiniC
