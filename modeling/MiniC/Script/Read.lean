import MiniC.Predict.AltSets
import MiniC.Predict.Merge
import MiniC.Script
import MiniC.Syntax.Build

/-!
# Values that scripts are given

How types, nodes of a syntax tree, edges of a network, guards and stacks are read from data. A type is its name or a
record, a node is a row of its name, its arguments and its children, an edge a row of its kind, its target and what it
stands for.
-/

namespace MiniC.Script

variable {σ : Type}

instance : Arg σ Layer := ⟨fun
  | .row [e, c] => return ⟨match e with
    | .flag true => .unknown
    | .number n _ => .length n
    | _ => .scalar, ← arg c⟩
  | _ => fail .malformed⟩

instance : Arg σ CType := ⟨fun
  | .word s => match s with
    | "int" | "float" | "char" | "void" => pure (.plain (.ofName s) false)
    | "string" => pure .string
    | _ => fail .unknownKey
  | r => return ⟨.ofName (← need r "base"), ← opt r "rvalue" false, ← opt r "ind" [⟨.scalar, false⟩]⟩⟩

def pick {α : Type} (table : List (String × α)) (word : Datum) : Step σ α := do
  (table.lookup (← arg word)).elim (fail .unknownKey) pure

def plainKinds : List (String × Kind) :=
  [("Program", .program), ("Include", .includeFile false "include name"),
    ("FunctionDeclaration", .function { form := .declaration }), ("FunctionDefinition", .function { form := .definition }),
    ("MainFunction", .function { form := .main }), ("Parameters", .parameters), ("Parameter", .parameter {}),
    ("Arguments", .arguments), ("InitializerList", .initializerList false), ("ArrayPart", .arrayPart),
    ("Statements", .statements), ("Statement", .statement), ("Return", .returnStmt), ("Break", .breakStmt),
    ("Continue", .continueStmt), ("If", .ifStmt), ("Else", .elseBranch), ("For", .forLoop false false false),
    ("While", .whileLoop), ("DoWhile", .doWhile), ("VariableDeclaration", .variableDeclaration {}),
    ("DeclaratorInitializer", .declarator {}), ("FunctionCall", .call none none none),
    ("AddressOfOperator", .addressOf), ("DereferenceOperator", .dereference), ("LogicalNotOperator", .logicalNot),
    ("ArraySubscript", .subscript), ("CommaOperator", .comma), ("SimpleAssignmentOperator", .assign),
    ("TernaryConditionalOperator", .conditional)]

def readKind (name : String) (args : List Datum) : Step σ Kind := do
  match name, args with
  | "IntegerLiteral", [.number n 0] => return .integer n
  | "FloatLiteral", [.number n places] => return .float (Binary64.ofDecimal (n < 0) n.natAbs (-(Int.ofNat places)))
  | "CharacterLiteral", [.word s] => return .character s
  | "StringLiteral", [.word s] => return .string s (← lift (Escape.decode s))
  | "Variable", .word s :: t => return .name s (← t.head?.mapM arg) none
  | "TypeCast", [t] =>
    let t : CType ← arg t
    return .cast { base := t.base, const := (t.layers.head?.map (·.const)).getD false } (t.layers.drop 1)
  | "UnaryArithmeticOperator", [op, side] =>
    return .unary (← pick [("increment", .increment), ("decrement", .decrement), ("plus", .plus), ("minus", .minus)] op)
      (← pick [("prefix", .before), ("postfix", .after)] side)
  | "BinaryArithmeticOperator", [op] =>
    return .arith (← pick [("add", .add), ("sub", .sub), ("mul", .mul), ("div", .div), ("modulo", .mod)] op)
  | "ComparisonOperator", [op] =>
    return .compare (← pick [("lt", .lt), ("gt", .gt), ("le", .le), ("ge", .ge), ("equal", .eq), ("inequal", .ne)] op)
  | "LogicOperator", [op] => return .logic (← pick [("conj", .conj), ("disj", .disj)] op)
  | _, _ => pick plainKinds (datum name)

mutual
def readNode : Datum → Step σ Node
  | .row [.word name, .row args, .row children] => do
    let kind ← readKind name args
    return .mk 0 kind none (← readChildren kind #[] children)
  | _ => fail .malformed

def readChildren (kind : Kind) (before : Array Node) : List Datum → Step σ (List Node)
  | [] => pure before.toList
  | c :: cs => do
    let c ← readNode c
    lift (Builder.checkRoom kind before.size)
    readChildren kind (before.push c) cs
end

instance : Arg σ Node := ⟨readNode⟩

/-- A set of symbols as a list of ranges; by default it holds 0. -/
instance : Arg σ IntervalSet := ⟨fun d =>
  return ((← arg d : Option (List (Int × Int))).getD [(0, 1)]).foldl (fun s (a, b) => s.insert ⟨a, b⟩) .empty⟩

def readEdge (kind : String) (args : List Datum) : Step σ Edge := do
  let target :: args := args | fail .unsuitable
  if target matches .nothing then fail Network.noTarget
  let t ← arg target
  let get {α : Type} [Arg σ α] (i : Nat) : Step σ α := (args[i]?).elim (fail .unsuitable) arg
  let orElse {α : Type} [Arg σ α] (i : Nat) (default : α) : Step σ α := (args[i]?).elim (pure default) arg
  match kind with
  | "Epsilon" => return .epsilon t (← orElse 0 (-1))
  | "Atom" => return .atom t (← get 0)
  | "Range" => return .range t (← get 0) (← get 1)
  | "Set" => return .set t (← get 0)
  | "NotSet" => return .notSet t (← get 0)
  | "Wildcard" => return .wildcard t
  | "Predicate" => return .predicate t (← get 0) (← get 1) (← get 2)
  | "PrecedencePredicate" => return .precedence t (← get 0)
  | "Action" => return .action t (← get 0) (← orElse 1 (-1)) (← orElse 2 false)
  | "Rule" => return .rule t (← get 0) (← get 1) (← get 2)
  | _ => fail .missing

instance : Arg σ PredictionMode := ⟨pick [("SLL", .sll), ("LL", .ll), ("LL_EXACT_AMBIG_DETECTION", .exact)]⟩

/-- A stack: its bottom as a word, or the way out with what lies below, or two of them. -/
def readStack : Datum → Step σ Stack
  | .nothing => pure .unknown
  | .row [p, .number r 0] => do lift ((← readStack p).call? r)
  | .row [.row [p, .number r 0], .row [q, .number s 0]] => do lift (Stack.fork? [← readStack p, ← readStack q] [r, s])
  | _ => pure .empty

instance : Arg σ Stack := ⟨readStack⟩

def readGuard : Datum → Step σ Guard
  | .row [.word "pred", r, i, c] => return .pred (← arg r) (← arg i) (← arg c)
  | .row [.word "prec", n] => return .prec (← arg n)
  | .row [.word op, a, b] => do
    lift ((if op == "and" then Guard.both else Guard.either) (← readGuard a) (← readGuard b))
  | _ => pure .always

instance : Arg σ Guard := ⟨readGuard⟩

end MiniC.Script
