import MiniC.Grammar.Basic

/-!
# The C grammar

The tokens and rules of the language that is compiled: a part of C.
-/

namespace MiniC.Grammar.C

def writtenLexer : WrittenNetwork where
  tokenTypes := some ((List.range 53).map (· + 1))
  lastType := 53
  rules :=
    "2 0 a44 x
     2 0 a61 x
     2 0 a63 x
     2 0 a58 x
     3 0 a124 a124 x
     3 0 a38 a38 x
     3 0 a61 a61 x
     3 0 a33 a61 x
     2 0 a60 x
     3 0 a60 a61 x
     2 0 a62 x
     3 0 a62 a61 x
     2 0 a43 x
     2 0 a45 x
     2 0 a42 x
     2 0 a47 x
     2 0 a37 x
     3 0 a43 a43 x
     3 0 a45 a45 x
     2 0 a38 x
     2 0 a33 x
     2 0 a91 x
     2 0 a93 x
     2 0 a40 x
     2 0 a41 x
     2 0 a59 x
     9 0 a35 a105 a110 a99 a108 a117 a100 a101 x
     2 0 a46 x
     2 0 a123 x
     2 0 a125 x
     5 0 a99 a104 a97 a114 x
     6 0 a102 a108 a111 a97 a116 x
     4 0 a105 a110 a116 x
     5 0 a118 a111 a105 a100 x
     6 0 a99 a111 a110 a115 a116 x
     9 0 a118 a111 a108 a97 a116 a105 a108 a101 x
     8 0 a109 a117 a116 a97 a98 a108 a101 x
     3 0 a105 a102 x
     5 0 a101 a108 a115 a101 x
     3 0 a100 a111 x
     6 0 a119 a104 a105 a108 a101 x
     4 0 a102 a111 a114 x
     6 0 a98 a114 a101 a97 a107 x
     9 0 a99 a111 a110 a116 a105 a110 a117 a101 x
     7 0 a114 a101 a116 a117 a114 a110 x
     4*2 0 a47 a47 +4 n0+2 -1 +3 -2|+1 +2 -2 c x
     4*5 0 a47 a42 +4 w+2 -1 +3 +1|-2 +2 -2 a42 a47 +1 c x
     1+ 1 s1+2 -1 +1 -2|+1 x
     5?1?3?2? 17 r47 a46 r47+6 s2+2 s3+2 -1|+1 +1 r47+2 -5|+1 +9 r47 s2+2 s3+2 -1|+1 +1 r47 +2 -17|-7 x
     2* 0 s4+4 s5+2 -1 +3 -2|+1 x -2
     4?2 0 a39+4 w+4 a92 w+2 -3|-2 +1 a39 x
     4*2 0 a34+6 a92 w+3 n6+2 -3|-1 +3 -2|+1 +2 -2 a34 x
     1+2 1 s7+2 -1 +1 -2|+1 +1 c x"
  nonGreedy := [285]
  sets := [[10, 10, 13, 13], [48, 57], [69, 69, 101, 101], [43, 43, 45, 45], [65, 90, 95, 95, 97, 122],
    [48, 57, 65, 90, 92, 92, 95, 95, 97, 122], [10, 10, 13, 13, 34, 34, 92, 92], [9, 10, 13, 13, 32, 32]]
  actions := [[6, 0, 0]]

def storedLexer : Array Nat := writtenLexer.stored

def writtenNet : WrittenNetwork where
  lastType := 53
  rules :=
    "6* 0 c r1 +6 p2 a1 r1+2 -3 +3 -2|+1 x -2
     5? 5 r2 a2 r1 +3 r2+2 -5|-1 x
     7? 7 r3 a3 r3 a4 r2 +3 r3+2 -7|-1 x
     6* 0 c r4 +6 p2 a5 r4+2 -3 +3 -2|+1 x -2
     6* 0 c r8 +6 p2 a6 r8+2 -3 +3 -2|+1 x -2
     2 0 r6 x
     2 0 r7 x
     2 0 r8 x
     9* 0 c r9 +9 p3 a7 r9+5 p2 a8 r9+2 -6|-3 +3 -2|+1 x -2
     15* 0 c r11 +15 p5 a9 r11+11 p4 a10 r11+8 p3 a11 r11+5 p2 a12 r11+2 -12|-9|-6|-3 +3 -2|+1 x -2
     2 0 r11 x
     9* 0 c r12 +9 p3 a13 r12+5 p2 a14 r12+2 -6|-3 +3 -2|+1 x -2
     12* 0 c r13 +12 p4 a15 r13+8 p3 a16 r13+5 p2 a17 r13+2 -9|-6|-3 +3 -2|+1 x -2
     16? 16 a18 r13+16 a19 r13+14 a13 r13+12 a14 r13+10 a20 r13+8 a15 r13+6 a21 r13+4 r15+3 r14+2 -16|-14|-12|-10|-8|-6|-4|-2|-1 x
     11?9* 11 c r49+11 r53+10 r54+9 r55+8 r56+7 a24 r0 a25 +3 r48+2 -11|-9|-8|-7|-6|-5|-1 +12 p10 a18+9 p9 a19+7 p8 a22 r0 a23 +2 -9|-7|-5 +3 -2|+1 x -2
     2+1*3 0 a24+2 r39+2 -1 +1 -2|+1 +4 r26+2 -1 +3 -2|+1 +2 -2 a25 r13 x
     6* 8 r17+7 r20+6 r21+5 r38 a26 +2 -6|-5|-4|-3 +3 -2|+1 x -2
     7? 7 a27 a9 r18 a11 +4 a27 r19+2 -7|-2 x
     4 0 r50 a28 r50 x
     2 0 r56 x
     1*1*6 3 r39+2 -1 +3 -2|+1 +5 -2 r26+2 -1 +3 -2|+1 +2 -2 r50 a24 r22 a25 a26 x
     1*1*6 3 r39+2 -1 +3 -2|+1 +5 -2 r26+2 -1 +3 -2|+1 +2 -2 r50 a24 r22 a25 r28 x
     3*1? 9 r23+5 a1 r23+2 -2 +3 -2|+1 +4 -2 +2 -9|-1 x
     1+2 1 r39+2 -1 +1 -2|+1 +1 r24 x
     5? 5 a24 r25 a25 +3 r25+2 -5|-1 x
     1*4*1*1?1*? 30 r26+2 -1 +3 -2|+1 +2 -2 a24 r25 a25+4 r27+2 -1 +3 -2|+1 +18 -2 r26+2 -1 +3 -2|+1 +3 -2 r50+2 -1|+1 +4 r27+2 -1 +3 -2|+1 +3 -2 -27|-12 x
     2? 0 a15+2 r40+2 -1|+1 x
     2?2 0 a22+2 r0+2 -1|+1 +1 a23 x
     2*2 0 a29+4 r29+2 -1 +3 -2|+1 +2 -2 a30 x
     21? 21 r28+22 r30+21 r32+20 r33+19 r34+18 r0 a26 +15 r38 a26 +12 r44 a26 +9 r45 a26 +6 r46 a26 +3 a26+2 -21|-20|-19|-18|-17|-16|-13|-10|-7|-4|-1 x
     6? 0 a38 a24 r0 a25 r29+2 r31+2 -1|+1 x
     3 0 a39 r29 x
     6 0 a41 a24 r0 a25 r29 x
     8 0 a40 r28 a41 a24 r0 a25 a26 x
     10 0 a42 a24 r35 a26 r36 a26 r37 a25 r29 x
     3? 3 r38+4 r0+3 +2 -3|-2|-1 x
     2? 2 r0+3 +2 -2|-1 x
     2? 2 r0+3 +2 -2|-1 x
     1+3* 1 r39+2 -1 +1 -2|+1 +1 r41+5 a1 r41+2 -2 +3 -2|+1 x -2
     2? 2 r52+3 r40+2 -2|-1 x
     2 0 a35 x
     5?3?? 12 a24 r42 a25+3 a2 r43+2 -2|+1 +7 r42+3 a2 r43+2 -2|+1 +2 -12|-5 x
     1*4*1*2*? 28 r26+2 -1 +3 -2|+1 +2 -2 a24 r42 a25+4 r27+2 -1 +3 -2|+1 +16 -2 r26+2 -1 +3 -2|+1 +2 -2 r50+4 r27+2 -1 +3 -2|+1 +3 -2 -25|-10 x
     4*?2?4*?2?1? 31 a29+9 r1+5 a1 r1+2 -2 +3 -2|+1 +3 -2 -8|+1 +1 a30+2 a1+2 -1|+1 +18 a29+9 r43+5 a1 r43+2 -2 +3 -2|+1 +3 -2 -8|+1 +1 a30+2 a1+2 -1|+1 +3 r1+2 -31|-16|-1 x
     2? 0 a45+2 r0+2 -1|+1 x
     2 0 a43 x
     2 0 a44 x
     3*1? 9 r1+5 a1 r1+2 -2 +3 -2|+1 +4 -2 +2 -9|-1 x
     5 0 r50 a24 r47 a25 x
     2 0 r50 x
     2 0 a50 x
     2 0 a15 x
     2 0 s0 x
     2 0 a49 x
     2 0 a48 x
     2 0 a51 x
     3 0 a52 x"
  precedence := [0, 6, 8, 16, 18, 22, 24, 28]
  sets := [[31, 34]]

def storedNet : Array Nat := writtenNet.stored

def lexer : LexerSpec := ⟨networkOf storedLexer, none⟩

def net : Network := networkOf storedNet

def choices : Choices := choicesOf net

def vocabulary : Vocabulary where
  literal :=
    #["<INVALID>", "','", "'='", "'?'", "':'", "'||'", "'&&'", "'=='", "'!='", "'<'", "'<='",
      "'>'", "'>='", "'+'", "'-'", "'*'", "'/'", "'%'", "'++'", "'--'", "'&'", "'!'", "'['", "']'",
      "'('", "')'", "';'", "'#include'", "'.'", "'\x7b'", "'\x7d'", "'char'", "'float'", "'int'",
      "'void'", "'const'", "'volatile'", "'mutable'", "'if'", "'else'", "'do'", "'while'", "'for'",
      "'break'", "'continue'", "'return'"]
  symbolic :=
    #["<INVALID>", "<INVALID>", "<INVALID>", "<INVALID>", "<INVALID>", "<INVALID>", "<INVALID>",
      "<INVALID>", "<INVALID>", "<INVALID>", "<INVALID>", "<INVALID>", "<INVALID>", "<INVALID>",
      "<INVALID>", "<INVALID>", "<INVALID>", "<INVALID>", "<INVALID>", "<INVALID>", "<INVALID>",
      "<INVALID>", "<INVALID>", "<INVALID>", "<INVALID>", "<INVALID>", "<INVALID>", "<INVALID>",
      "<INVALID>", "<INVALID>", "<INVALID>", "TYPECHAR", "TYPEFLOAT", "TYPEINT", "TYPEVOID",
      "CONST", "VOLATILE", "MUTABLE", "IF", "ELSE", "DO", "WHILE", "FOR", "BREAK", "CONTINUE",
      "RETURN", "COMMENT", "MULTICOMMENT", "INTEGER", "FLOAT", "IDENTIFIER", "CHARACTER", "STRING",
      "WS"]

def ruleNames : Array String :=
  #["oplevel15", "oplevel14", "oplevel13", "oplevel12", "oplevel11", "oplevel10", "oplevel9",
    "oplevel8", "oplevel7", "oplevel6", "oplevel5", "oplevel4", "oplevel3", "oplevel2",
    "oplevel1", "typeCast", "program", "include", "stdInclude", "customInclude",
    "functionDeclaration", "functionDefinition", "parameters", "parameter", "paramDeclarator",
    "paramDeclarator1", "pointerPart", "arrayPart", "statements", "statement", "ifCond",
    "elseCond", "whileCond", "doWhileCond", "forLoop", "forLoopInitStatement",
    "forLoopCondition", "forLoopIterationExpression", "variableDeclaration",
    "declarationSpecifier", "cvQualifier", "declaratorInitializer", "declarator1", "initializer",
    "returnStmt", "breakStmt", "continueStmt", "arguments", "functionCall", "variable",
    "identifier", "pointer", "typeDeclaration", "floatLiteral", "integerLiteral",
    "characterLiteral", "stringLiteral"]

def accessors : Array (List Accessor) := accessorsIn
  "oplevel14 oplevel15
   oplevel13 oplevel14
   oplevel12* oplevel13
   oplevel11 oplevel12
   oplevel7 oplevel11
   oplevel9
   oplevel8
   oplevel7
   oplevel6 oplevel7
   oplevel4 oplevel6
   oplevel4
   oplevel3 oplevel4
   oplevel2 oplevel3
   oplevel2 typeCast oplevel1
   variable floatLiteral integerLiteral characterLiteral stringLiteral oplevel15 functionCall oplevel1
   oplevel2 declarationSpecifier* pointerPart*
   include* functionDeclaration* functionDefinition* variableDeclaration*
   stdInclude customInclude
   identifier*
   stringLiteral
   identifier parameters declarationSpecifier* pointerPart*
   identifier parameters statements declarationSpecifier* pointerPart*
   parameter*
   paramDeclarator declarationSpecifier*
   paramDeclarator1
   paramDeclarator1 pointerPart* arrayPart* identifier
   cvQualifier
   oplevel15
   statement*
   statements ifCond whileCond doWhileCond forLoop oplevel15 variableDeclaration returnStmt breakStmt continueStmt
   IF oplevel15 statement elseCond
   ELSE statement
   WHILE oplevel15 statement
   DO statements WHILE oplevel15
   FOR forLoopInitStatement forLoopCondition forLoopIterationExpression statement
   variableDeclaration oplevel15
   oplevel15
   oplevel15
   declaratorInitializer* declarationSpecifier*
   typeDeclaration cvQualifier
   CONST
   declarator1 initializer
   declarator1 pointerPart* arrayPart* identifier
   
   RETURN oplevel15
   BREAK
   CONTINUE
   oplevel14*
   identifier arguments
   identifier
   IDENTIFIER
   
   TYPECHAR TYPEFLOAT TYPEINT TYPEVOID
   FLOAT
   INTEGER
   CHARACTER
   STRING"

def labels : List AltLabel := [
    ⟨43, [1, 2], "arrayInitializer", [.many "oplevel14", .many "initializer"]⟩,
    ⟨43, [3], "expressionInitializer", [.one "oplevel14"]⟩]


end MiniC.Grammar.C

namespace MiniC

def Grammar.c : Grammar where
  lexer := Grammar.C.lexer
  net := Grammar.C.net
  choices := Grammar.C.choices
  storedLexer := Grammar.C.storedLexer
  storedNet := Grammar.C.storedNet
  vocabulary := Grammar.C.vocabulary
  ruleNames := Grammar.C.ruleNames
  accessors := Grammar.C.accessors
  labels := Grammar.C.labels
  announce := none

end MiniC
