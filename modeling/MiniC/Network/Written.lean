/-!
# Written networks

A network is stored as a row of numbers and written in a shorter way, with one line for each rule. A line begins with
the shape of the rule's inner states and with how far behind the first of them the rule begins; then come the edges,
state by state.

In a shape a number counts basic states, `?` is a block of alternatives, `+` and `*` are blocks that are repeated. The
edges of one state have `|` between them. An edge is a letter for its kind, a number for what it reads or calls, and how
far it leads: to the next state if nothing is said. A free edge has no letter, and `x` is the one that leaves the rule.
-/

namespace MiniC

structure WrittenNetwork where
  /-- The token types of a lexer's rules, 0 for a rule without one; a parser has no list. -/
  tokenTypes : Option (List Nat) := none
  lastType : Nat
  rules : String
  nonGreedy : List Nat := []
  precedence : List Nat := []
  sets : List (List Nat) := []
  actions : List (List Nat) := []

namespace WrittenNetwork

/-- The codes of a group of states, with how far it is to the other end where a state has one. -/
def group : Char → List (Nat × Int)
  | '?' => [(3, 1), (8, 0)]
  | '+' => [(4, 1), (8, 0), (11, 0), (12, -1)]
  | '*' => [(5, 1), (8, 0), (10, 0), (12, 1), (9, 0)]
  | _ => []

def valueOf (digits : List Char) : Nat := digits.foldl (fun n c => 10 * n + (c.toNat - '0'.toNat)) 0

def shapeOf (shape : String) : List (Nat × Int) :=
  let (states, count) := shape.foldl (fun (states, count) c =>
    if c.isDigit then (states, 10 * count + (c.toNat - '0'.toNat))
    else (states ++ List.replicate count (1, 0) ++ group c, 0)) ([], 0)
  states ++ List.replicate count (1, 0)

/-- A rule: the number of its first inner state, its states, where it begins, and the edges of each state. -/
structure Row where
  rule : Nat
  first : Nat
  shape : List (Nat × Int)
  entry : Nat
  edges : List String

/-- The rules of some lines, with numbers for the rules and for the inner states. -/
def rowsFrom (rule first : Nat) : List String → List Row
  | [] => []
  | line :: lines =>
    let words := (line.splitOn " ").filter (· ≠ "")
    let shape := shapeOf (words.getD 0 "")
    ⟨rule, first, shape, valueOf (words.getD 1 "").toList, words.drop 2⟩ :: rowsFrom (rule + 1) (first + shape.length) lines

variable (w : WrittenNetwork)

/-- The state a rule starts with; its stop state is the next. -/
def startOf (rule : Nat) : Nat := 2 * rule + (if w.tokenTypes.isSome then 1 else 0)

/-- The numbers of an edge that leaves the state `n`. -/
def edge (rule n : Nat) (text : String) : List Nat :=
  let (letters, behind) := text.toList.span Char.isAlpha
  let (digits, way) := behind.span Char.isDigit
  let label := valueOf digits
  let goal := match way with
    | '+' :: far => n + valueOf far
    | '-' :: far => n - valueOf far
    | _ => n + 1
  match letters with
  | ['r'] => [n, goal, 3, w.startOf label, label, 0]
  | ['a'] => [n, goal, 5, label, 0, 0]
  | ['c'] => [n, goal, 6, rule, if w.tokenTypes.isSome then 0 else 0xFFFF, 0]
  | ['s'] => [n, goal, 7, label, 0, 0]
  | ['n'] => [n, goal, 8, label, 0, 0]
  | ['w'] => [n, goal, 9, 0, 0, 0]
  | ['p'] => [n, goal, 10, label, 0, 0]
  | ['x'] => [n, w.startOf rule + 1, 1, 0, 0, 0]
  | _ => [n, goal, 1, 0, 0, 0]

def counted (lists : List (List Nat)) : List Nat := lists.length :: lists.flatten

def stored : Array Nat :=
  let lines := w.rules.splitOn "\n"
  let rows := rowsFrom 0 (w.startOf lines.length) lines
  -- a lexer has a state in front of all rules, from which those with a token type are tried
  let begun : List (List Nat) := if w.tokenTypes.isSome then [[6, 0xFFFF]] else []
  let states := begun ++ rows.flatMap (fun r => [[2, r.rule], [7, r.rule]]) ++ rows.flatMap fun r =>
    r.shape.zipIdx r.first |>.map fun ((code, far), n) => [code, r.rule] ++ (if far = 0 then [] else [(n + far).toNat])
  let rules := rows.map fun r => w.startOf r.rule :: (w.tokenTypes.map fun types => types.getD r.rule 0).toList
  let tried := rules.filterMap fun r => match r with
    | [start, _ + 1] => some [0, start, 1, 0, 0, 0]
    | _ => none
  let entries := rows.map fun r => [w.startOf r.rule, r.first + r.entry, 1, 0, 0, 0]
  let ways := rows.flatMap fun r => (r.edges.zipIdx r.first).map fun (text, n) => (n, (text.splitOn "|").map (w.edge r.rule n))
  let decisions := begun.map (fun _ => [0]) ++ (ways.filter (·.2.length > 1)).map ([·.1])
  let numbers := [1070, 54991, 33284, 44331, 17429, 44783, 36222, 43739, 1 - begun.length, w.lastType] ++ counted states
    ++ counted (w.nonGreedy.map ([·])) ++ counted (w.precedence.map ([·])) ++ counted rules ++ counted (begun.map fun _ => [0])
    ++ counted (w.sets.map fun s => s.length / 2 :: 0 :: s) ++ counted (tried ++ entries ++ ways.flatMap (·.2))
    ++ counted decisions ++ (if w.tokenTypes.isSome then counted w.actions else [])
  (3 :: numbers.map fun n => (n + 2) % 0x10000).toArray

end WrittenNetwork

end MiniC
