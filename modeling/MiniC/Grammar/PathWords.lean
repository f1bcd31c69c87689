import MiniC.Grammar.Basic
import MiniC.Text.CharClass

/-!
# The words of path expressions

A path expression is made of names, separators, `*`, `!` and quoted words. A name is the name of a token
if it begins with an upper-case letter and else the name of a rule.
-/

namespace MiniC.PathWords

def writtenLexer : WrittenNetwork where
  tokenTypes := some [3, 4, 5, 6, 7, 0, 0, 8]
  lastType := 8
  rules :=
    "3 0 a47 a47 x
     2 0 a47 x
     2 0 a42 x
     2 0 a33 x
     2*2 0 r6+4 r5+2 -1 +3 -2|+1 +2 -2 c x
     2? 2 r6+3 s0+2 -2|-1 x
     2 0 s1 x
     2*2 0 a39+4 w+2 -1 +3 +1|-2 +2 -2 a39 x"
  nonGreedy := [45]
  sets := [[48, 57, 95, 95, 183, 183, 768, 879, 8255, 8256], [65, 90, 97, 122, 192, 214, 216, 246, 248, 767, 880, 893, 895, 8191, 8204, 8205, 8304, 8591, 11264, 12271, 12289, 55295, 63744, 64975, 65008, 65533]]
  actions := [[1, 4, 0]]

def storedLexer : Array Nat := writtenLexer.stored

def tokenRef : Int := 1

def ruleRef : Int := 2

def anywhere : Int := 3

def root : Int := 4

def wildcard : Int := 5

def bang : Int := 6

def string : Int := 8

/-- The only action tells apart the two sorts of names. -/
def nameAction (rule action : Int) (text : String) : Except Fault (Option Int) :=
  if rule ≠ 4 then throw (.illegal s!"No registered action for:{rule}")
  else if action ≠ 0 then pure none
  else
    match text.toList with
    | [] => throw .outOfRange
    | c :: _ => pure (some (if CharClass.isUpper c.toNat then tokenRef else ruleRef))

def lexer : LexerSpec := ⟨Grammar.networkOf storedLexer, some nameAction⟩

def symbolicNames : Array String :=
  #["<INVALID>", "TOKEN_REF", "RULE_REF", "ANYWHERE", "ROOT", "WILDCARD", "BANG", "ID", "STRING"]

end MiniC.PathWords
