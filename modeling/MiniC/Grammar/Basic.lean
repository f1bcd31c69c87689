import MiniC.Lexeme.Scanner
import MiniC.Network.Follow
import MiniC.Network.Reader
import MiniC.Network.Written
import MiniC.Parse.Tree

/-!
# Grammars

A grammar is a network for its lexer, one for its parser, and the names that messages and trees use.
Networks are kept in written and in stored form.
-/

namespace MiniC

/-- A way to ask a node of a rule for its children of one sort: the name of a rule or of a token. A rule
that has such a child at most once gives one, any other gives all of them. -/
inductive Accessor where
  | one (name : String)
  | many (name : String)
  deriving DecidableEq, Repr, Inhabited

/-- A label of alternatives of a rule; nodes that carry it have accessors of their own. -/
structure AltLabel where
  rule : Nat
  alternatives : List Nat
  name : String
  accessors : List Accessor
  deriving Repr, Inhabited

/-- How each decision is taken: by the symbols that begin each way out where one symbol is enough, and by a
prediction where there is nothing. -/
abbrev Choices := Array (Option (Array IntervalSet))

def choicesOf (net : Network) : Choices := net.decisions.map net.firstSymbols?

structure Grammar where
  lexer : LexerSpec
  net : Network
  choices : Choices
  storedLexer : Array Nat
  storedNet : Array Nat
  vocabulary : Vocabulary
  ruleNames : Array String
  accessors : Array (List Accessor)
  labels : List AltLabel
  /-- What the actions of a rule print, given the first token that was read in it. -/
  announce : Option (Token → String)
  deriving Inhabited

namespace Grammar

/-- The network of a stored form that is known to be well formed. -/
def networkOf (stored : Array Nat) : Network :=
  match Network.read ⟨true, false⟩ stored.toList with
  | .ok net => net
  | .error _ => default

/-- Accessors of rules, a line for each rule: names, with a star where there may be many. -/
def accessorsIn (text : String) : Array (List Accessor) :=
  let accessor (word : String) : Accessor := if word.endsWith "*" then .many (word.dropEnd 1).toString else .one word
  ((text.splitOn "\n").map fun line => ((line.splitOn " ").filter (· ≠ "")).map accessor).toArray

def tokenName (g : Grammar) (type : Int) : String :=
  if type = Token.eof then "EOF"
  else
    match entryAt? g.vocabulary.symbolic type with
    | some name => if name = "<INVALID>" then (entryAt? g.vocabulary.literal type).getD name else name
    | none => (entryAt? g.vocabulary.literal type).getD "<INVALID>"

def tokenType? (g : Grammar) (name : String) : Option Int :=
  if name = "EOF" then some Token.eof
  else
    match g.vocabulary.symbolic.findIdx? (· == name) with
    | some n => some (Int.ofNat n)
    | none => (g.vocabulary.literal.findIdx? (· == name)).map Int.ofNat

def ruleIndex? (g : Grammar) (name : String) : Option Nat := g.ruleNames.findIdx? (· == name)

def ruleName (g : Grammar) (rule : Nat) : String := (g.ruleNames[rule]?).getD ""

def labelOf? (g : Grammar) (rule alternative : Nat) : Option String :=
  (g.labels.find? fun l => l.rule = rule ∧ l.alternatives.contains alternative).map (·.name)

def accessorsOf (g : Grammar) (rule : Nat) (label : Option String) : List Accessor :=
  match label.bind fun name => g.labels.find? fun l => l.rule = rule ∧ l.name = name with
  | some l => l.accessors
  | none => (g.accessors[rule]?).getD []

def childrenOf (g : Grammar) (t : ParseTree) (name : String) : List ParseTree :=
  match g.ruleIndex? name with
  | some r => t.rulesOf (Int.ofNat r)
  | none => t.tokensOf ((g.tokenType? name).getD 0)

end Grammar

end MiniC
