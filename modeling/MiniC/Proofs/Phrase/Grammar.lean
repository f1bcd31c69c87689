import MiniC.Syntax.Build

/-!
# The grammar

The rules from programs down to names and literals as a table: each rule has alternatives, each alternative is a row of
items. An item is a token, a rule, a row of items any number of times, or one of several rows.

`Derives r t ls` says that `t` is a parse tree of the rule `r` whose leaves spell the lexemes `ls`. It is all that a
parser of the language is asked for: it has to find such a tree, and may find any.
-/

namespace MiniC.Phrase

/-- A token as the grammar sees it: spelled out in the grammar, or of a class of tokens. -/
inductive Lexeme where
  | sign (text : String)
  | identifier (text : String)
  | integer (text : String)
  | float (text : String)
  | character (text : String)
  | string (text : String)
  deriving DecidableEq, Repr

namespace Lexeme

def text : Lexeme → String
  | sign s | identifier s | integer s | float s | character s | string s => s

/-- What the type of the token is called. -/
def typeName : Lexeme → String
  | sign s => "'" ++ s ++ "'"
  | identifier _ => "IDENTIFIER"
  | integer _ => "INTEGER"
  | float _ => "FLOAT"
  | character _ => "CHARACTER"
  | string _ => "STRING"

end Lexeme

/-- A tree is the leaf of a token that was read as it stands in the source. -/
def Spells (t : ParseTree) (l : Lexeme) : Prop :=
  ∃ token : Token, t = .leaf token false ∧ token.text = some l.text ∧ Grammar.c.tokenType? l.typeName = some token.type

/-- The levels of operators, from the loosest to the tightest. -/
inductive Level where
  | comma
  | assignment
  | conditional
  | disjunction
  | conjunction
  | equality
  | relation
  | sum
  | product
  | prefixed
  | suffixed
  deriving DecidableEq, Repr

inductive Rule where
  | level (l : Level)
  | cast
  | call
  | arguments
  | name
  | identifier
  | specifier
  | typeWord
  | constWord
  | pointerPart
  | float
  | integer
  | character
  | string
  | program
  | inclusion
  | stdInclude
  | customInclude
  | functionDeclaration
  | functionDefinition
  | parameters
  | parameter
  | parameterDeclarator
  | parameterShape
  | arrayPart
  | statements
  | statement
  | ifCond
  | elseCond
  | whileCond
  | doWhileCond
  | forLoop
  | header (p : Part)
  | variableDeclaration
  | declarator
  | declaratorShape
  | initializer (array : Bool)
  | returnStmt
  | breakStmt
  | continueStmt
  deriving DecidableEq, Repr

/-- What the grammar calls a level. -/
def Level.name : Level → String
  | comma => "oplevel15"
  | assignment => "oplevel14"
  | conditional => "oplevel13"
  | disjunction => "oplevel12"
  | conjunction => "oplevel11"
  | equality => "oplevel7"
  | relation => "oplevel6"
  | sum => "oplevel4"
  | product => "oplevel3"
  | prefixed => "oplevel2"
  | suffixed => "oplevel1"

def Rule.ruleName : Rule → String
  | level l => l.name
  | cast => "typeCast"
  | call => "functionCall"
  | arguments => "arguments"
  | name => "variable"
  | identifier => "identifier"
  | specifier => "declarationSpecifier"
  | typeWord => "typeDeclaration"
  | constWord => "cvQualifier"
  | pointerPart => "pointerPart"
  | float => "floatLiteral"
  | integer => "integerLiteral"
  | character => "characterLiteral"
  | string => "stringLiteral"
  | program => "program"
  | inclusion => "include"
  | stdInclude => "stdInclude"
  | customInclude => "customInclude"
  | functionDeclaration => "functionDeclaration"
  | functionDefinition => "functionDefinition"
  | parameters => "parameters"
  | parameter => "parameter"
  | parameterDeclarator => "paramDeclarator"
  | parameterShape => "paramDeclarator1"
  | arrayPart => "arrayPart"
  | statements => "statements"
  | statement => "statement"
  | ifCond => "ifCond"
  | elseCond => "elseCond"
  | whileCond => "whileCond"
  | doWhileCond => "doWhileCond"
  | forLoop => "forLoop"
  | header .initializer => "forLoopInitStatement"
  | header .condition => "forLoopCondition"
  | header .iteration => "forLoopIterationExpression"
  | variableDeclaration => "variableDeclaration"
  | declarator => "declaratorInitializer"
  | declaratorShape => "declarator1"
  | initializer _ => "initializer"
  | returnStmt => "returnStmt"
  | breakStmt => "breakStmt"
  | continueStmt => "continueStmt"

/-- The label of the alternatives of a rule whose alternatives are told apart. -/
def Rule.label? : Rule → Option String
  | initializer true => some "arrayInitializer"
  | initializer false => some "expressionInitializer"
  | _ => none

/-- A part of an alternative. -/
inductive Item where
  | token (is : Lexeme → Bool)
  | rule (r : Rule)
  | many (items : List Item)
  | either (rows : List (List Item))

namespace Item

def sign (text : String) : Item := token (· == .sign text)

def level (l : Level) : Item := rule (.level l)

def optional (items : List Item) : Item := either [items, []]

/-- An item, then more of them with commas between. -/
def listed (i : Item) : List Item := [i, many [sign ",", i]]

end Item

/-- Signs between operands: the left one may be of the same level, the right one is tighter. -/
def infixes (l : Level) (signs : List String) (tighter : Level) : List (List Item) :=
  signs.map (fun s => [.level l, .sign s, .level tighter]) ++ [[.level tighter]]

def Level.alternatives : Level → List (List Item)
  | comma => infixes comma [","] assignment
  | assignment => [[.level conditional, .sign "=", .level assignment], [.level conditional]]
  | conditional =>
    [[.level disjunction, .sign "?", .level disjunction, .sign ":", .level conditional], [.level disjunction]]
  | disjunction => infixes disjunction ["||"] conjunction
  | conjunction => infixes conjunction ["&&"] equality
  | equality => infixes equality ["==", "!="] relation
  | relation => infixes relation ["<", "<=", ">", ">="] sum
  | sum => infixes sum ["+", "-"] product
  | product => infixes product ["*", "/", "%"] prefixed
  | prefixed =>
    ["++", "--", "+", "-", "&", "*", "!"].map (fun s => [.sign s, .level prefixed])
      ++ [[.rule .cast], [.level suffixed]]
  | suffixed =>
    ["++", "--"].map (fun s => [.level suffixed, .sign s])
      ++ [[.level suffixed, .sign "[", .level comma, .sign "]"], [.rule .name], [.rule .float], [.rule .integer],
        [.rule .character], [.rule .string], [.sign "(", .level comma, .sign ")"], [.rule .call]]

def Rule.alternatives : Rule → List (List Item)
  | level l => l.alternatives
  | cast =>
    [[.sign "(", .rule specifier, .many [.rule specifier], .many [.rule pointerPart], .sign ")", .level .prefixed]]
  | call => [[.rule identifier, .sign "(", .rule arguments, .sign ")"]]
  | arguments => [[.level .assignment, .many [.sign ",", .level .assignment]], []]
  | name => [[.rule identifier]]
  | identifier => [[.token fun l => l matches .identifier _]]
  | specifier => [[.rule typeWord], [.rule constWord]]
  | typeWord => ["char", "float", "int", "void"].map fun s => [.sign s]
  | constWord => [[.sign "const"]]
  | pointerPart => [[.sign "*"], [.sign "*", .rule constWord]]
  | float => [[.token fun l => l matches .float _]]
  | integer => [[.token fun l => l matches .integer _]]
  | character => [[.token fun l => l matches .character _]]
  | string => [[.token fun l => l matches .string _]]
  | program =>
    [[.many [.either [[.rule inclusion], [.rule functionDeclaration], [.rule functionDefinition],
      [.rule variableDeclaration, .sign ";"]]]]]
  | inclusion => [[.sign "#include", .sign "<", .rule stdInclude, .sign ">"], [.sign "#include", .rule customInclude]]
  | stdInclude => [[.rule identifier, .sign ".", .rule identifier]]
  | customInclude => [[.rule string]]
  | functionDeclaration => [signature ++ [.sign ";"]]
  | functionDefinition => [signature ++ [.rule statements]]
  | parameters => [Item.listed (.rule parameter), []]
  | parameter => [[.rule specifier, .many [.rule specifier], .rule parameterDeclarator]]
  | parameterDeclarator => [[.sign "(", .rule parameterShape, .sign ")"], [.rule parameterShape]]
  | parameterShape => [nestedShape parameterShape, shape (.optional [.rule identifier])]
  | arrayPart => [[.sign "[", .level .comma, .sign "]"], [.sign "[", .sign "]"]]
  | statements => [[.sign "\x7b", .many [.rule statement], .sign "\x7d"]]
  | statement =>
    [statements, ifCond, whileCond, doWhileCond, forLoop].map (fun r => [.rule r])
      ++ [.level .comma, variableDeclaration, returnStmt, breakStmt, continueStmt].map (fun r => [.rule r, .sign ";"])
      ++ [[.sign ";"]]
  | ifCond =>
    [[.sign "if", .sign "(", .level .comma, .sign ")", .rule statement, .optional [.rule elseCond]]]
  | elseCond => [[.sign "else", .rule statement]]
  | whileCond => [[.sign "while", .sign "(", .level .comma, .sign ")", .rule statement]]
  | doWhileCond =>
    [[.sign "do", .rule statements, .sign "while", .sign "(", .level .comma, .sign ")", .sign ";"]]
  | forLoop =>
    [[.sign "for", .sign "(", .rule (header .initializer), .sign ";", .rule (header .condition), .sign ";",
      .rule (header .iteration), .sign ")", .rule statement]]
  | header .initializer => [[.rule variableDeclaration], [.level .comma], []]
  | header _ => [[.level .comma], []]
  | variableDeclaration => [.rule specifier :: .many [.rule specifier] :: Item.listed (.rule declarator)]
  | declarator =>
    [[.sign "(", .rule declaratorShape, .sign ")"], [.rule declaratorShape]].map
      (· ++ [.optional [.sign "=", .either initializers]])
  | declaratorShape => [nestedShape declaratorShape, shape (.rule identifier)]
  | initializer true =>
    [[.optional (Item.listed (.level .assignment))], [.optional (Item.listed (.either initializers))]].map fun row =>
      .sign "\x7b" :: row ++ [.sign "\x7d", .optional [.sign ","]]
  | initializer false => [[.level .assignment]]
  | returnStmt => [[.sign "return", .optional [.level .comma]]]
  | breakStmt => [[.sign "break"]]
  | continueStmt => [[.sign "continue"]]
where
  signature :=
    [.many [.rule specifier], .many [.rule pointerPart], .rule identifier, .sign "(", .rule parameters, .sign ")"]
  shape (i : Item) := [.many [.rule pointerPart], i, .many [.rule arrayPart]]
  nestedShape (r : Rule) := [.many [.rule pointerPart], .sign "(", .rule r, .sign ")", .many [.rule arrayPart]]
  initializers := [[.rule (initializer true)], [.rule (initializer false)]]

/-- A node is of a rule. -/
def Rule.IsOf (r : Rule) (info : RuleInfo) : Prop :=
  entryAt? Grammar.c.ruleNames info.rule = some r.ruleName ∧ ∀ label ∈ r.label?, info.label = some label

/-- Trees stand for a row of items, where it is known which trees stand for a rule. -/
inductive Matches (D : Rule → ParseTree → List Lexeme → Prop) : List Item → List ParseTree → List Lexeme → Prop
  | nil : Matches D [] [] []
  | token {is : Lexeme → Bool} {items : List Item} {t : ParseTree} {ts : List ParseTree} {l : Lexeme} {ls : List Lexeme} :
      is l = true → Spells t l → Matches D items ts ls → Matches D (.token is :: items) (t :: ts) (l :: ls)
  | rule {r : Rule} {items : List Item} {t : ParseTree} {ts : List ParseTree} {ls ls' : List Lexeme} :
      D r t ls → Matches D items ts ls' → Matches D (.rule r :: items) (t :: ts) (ls ++ ls')
  | stop {items rest : List Item} {ts : List ParseTree} {ls : List Lexeme} :
      Matches D rest ts ls → Matches D (.many items :: rest) ts ls
  | again {items rest : List Item} {ts ts' : List ParseTree} {ls ls' : List Lexeme} :
      Matches D items ts ls → Matches D (.many items :: rest) ts' ls' →
      Matches D (.many items :: rest) (ts ++ ts') (ls ++ ls')
  | either {items rest : List Item} {rows : List (List Item)} {ts ts' : List ParseTree} {ls ls' : List Lexeme} :
      items ∈ rows → Matches D items ts ls → Matches D rest ts' ls' →
      Matches D (.either rows :: rest) (ts ++ ts') (ls ++ ls')

/-- A tree is a parse tree of a rule, and its leaves spell some lexemes. -/
inductive Derives : Rule → ParseTree → List Lexeme → Prop
  | node {r : Rule} {info : RuleInfo} {items : List Item} {ts : List ParseTree} {ls : List Lexeme} :
      r.IsOf info → items ∈ r.alternatives → Matches Derives items ts ls → Derives r (.node info ts) ls

end MiniC.Phrase
