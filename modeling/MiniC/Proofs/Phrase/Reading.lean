import Mathlib.Data.List.Forall2
import MiniC.Proofs.Phrase.Grammar

/-!
# What texts of expressions stand for

`Expr` is the abstract syntax of expressions over names and integers. `Reads l ls e` says that the lexemes `ls` are a text
of the level `l` for `e`: levels without an operator and parentheses leave no trace. `Row` lists the alternatives of the
levels, with the nodes that are made of them, and `derives_induct` is the induction over parse trees.
-/

namespace MiniC.Phrase

/-- The operators of the levels whose operators group to the left. -/
inductive BinaryOp where
  | comma
  | logic (op : LogicOp)
  | compare (op : CompareOp)
  | arith (op : ArithOp)
  deriving DecidableEq, Repr

namespace BinaryOp

def sign : BinaryOp → String
  | comma => ","
  | logic .disj => "||"
  | logic .conj => "&&"
  | compare op => op.sign
  | arith op => op.sign

def level : BinaryOp → Level
  | comma => .comma
  | logic .disj => .disjunction
  | logic .conj => .conjunction
  | compare .eq | compare .ne => .equality
  | compare _ => .relation
  | arith .add | arith .sub => .sum
  | arith _ => .product

def kind : BinaryOp → Kind
  | comma => .comma
  | logic op => .logic op
  | compare op => .compare op
  | arith op => .arith op

end BinaryOp

inductive PrefixOp where
  | unary (op : UnaryOp)
  | address
  | dereference
  | not
  deriving DecidableEq, Repr

namespace PrefixOp

def sign : PrefixOp → String
  | unary op => op.sign
  | address => "&"
  | dereference => "*"
  | not => "!"

def kind : PrefixOp → Kind
  | unary op => .unary op .before
  | address => .addressOf
  | dereference => .dereference
  | not => .logicalNot

end PrefixOp

inductive SuffixOp where
  | increment
  | decrement
  deriving DecidableEq, Repr

namespace SuffixOp

def sign : SuffixOp → String
  | increment => "++"
  | decrement => "--"

def kind : SuffixOp → Kind
  | increment => .unary .increment .after
  | decrement => .unary .decrement .after

end SuffixOp

inductive TypeWord where
  | char
  | float
  | int
  | void
  deriving DecidableEq, Repr

namespace TypeWord

def text : TypeWord → String
  | char => "char"
  | float => "float"
  | int => "int"
  | void => "void"

def base : TypeWord → BaseType
  | char => .char
  | float => .float
  | int => .int
  | void => .void

end TypeWord

/-- Expressions; a cast is to a base type below some pointers. -/
inductive Expr where
  | int (value : Nat)
  | name (x : String)
  | call (f : String) (args : List Expr)
  | cast (base : TypeWord) (stars : Nat) (e : Expr)
  | prefixed (op : PrefixOp) (e : Expr)
  | suffixed (op : SuffixOp) (e : Expr)
  | subscript (a i : Expr)
  | binary (op : BinaryOp) (a b : Expr)
  | assign (a b : Expr)
  | conditional (c a b : Expr)

/-- The level an operand without operators of its own level is at. -/
def Level.tighter : Level → Level
  | comma => assignment
  | assignment => conditional
  | conditional => disjunction
  | disjunction => conjunction
  | conjunction => equality
  | equality => relation
  | relation => sum
  | sum => product
  | product => prefixed
  | prefixed | suffixed => suffixed

/-- The operators that group to the left at a level. -/
def Level.operators : Level → List BinaryOp
  | comma => [.comma]
  | disjunction => [.logic .disj]
  | conjunction => [.logic .conj]
  | equality => [.compare .eq, .compare .ne]
  | relation => [.compare .lt, .compare .le, .compare .gt, .compare .ge]
  | sum => [.arith .add, .arith .sub]
  | product => [.arith .mul, .arith .div, .arith .mod]
  | _ => []

theorem mem_operators {op : BinaryOp} {l : Level} : op ∈ l.operators ↔ op.level = l := by
  rcases op with _ | op | op | op
  · cases l <;> decide
  all_goals cases op <;> cases l <;> decide

theorem alternatives_of_operators {l : Level} (h : l.operators ≠ []) :
    l.alternatives = infixes l (l.operators.map (·.sign)) l.tighter := by
  cases l with
  | assignment | conditional | prefixed | suffixed => exact absurd rfl h
  | _ => rfl

/-- Lexemes of a level stand for an expression. -/
inductive Reads : Level → List Lexeme → Expr → Prop
  | tighter {l : Level} {ls : List Lexeme} {e : Expr} : l ≠ .suffixed → Reads l.tighter ls e → Reads l ls e
  | binary {op : BinaryOp} {ls1 ls2 : List Lexeme} {a b : Expr} :
      Reads op.level ls1 a → Reads op.level.tighter ls2 b → Reads op.level (ls1 ++ .sign op.sign :: ls2) (.binary op a b)
  | assign {ls1 ls2 : List Lexeme} {a b : Expr} :
      Reads .conditional ls1 a → Reads .assignment ls2 b → Reads .assignment (ls1 ++ .sign "=" :: ls2) (.assign a b)
  | conditional {ls1 ls2 ls3 : List Lexeme} {c a b : Expr} :
      Reads .disjunction ls1 c → Reads .disjunction ls2 a → Reads .conditional ls3 b →
      Reads .conditional (ls1 ++ .sign "?" :: (ls2 ++ .sign ":" :: ls3)) (.conditional c a b)
  | prefixed {op : PrefixOp} {ls : List Lexeme} {a : Expr} :
      Reads .prefixed ls a → Reads .prefixed (.sign op.sign :: ls) (.prefixed op a)
  | cast {ws : List TypeWord} {w : TypeWord} {stars : Nat} {ls : List Lexeme} {a : Expr} :
      Reads .prefixed ls a →
      Reads .prefixed
        (.sign "(" :: ((ws ++ [w]).map (fun w => .sign w.text) ++ List.replicate stars (.sign "*") ++ .sign ")" :: ls))
        (.cast w stars a)
  | suffixed {op : SuffixOp} {ls : List Lexeme} {a : Expr} :
      Reads .suffixed ls a → Reads .suffixed (ls ++ [.sign op.sign]) (.suffixed op a)
  | subscript {ls1 ls2 : List Lexeme} {a i : Expr} :
      Reads .suffixed ls1 a → Reads .comma ls2 i →
      Reads .suffixed (ls1 ++ .sign "[" :: (ls2 ++ [.sign "]"])) (.subscript a i)
  | paren {ls : List Lexeme} {a : Expr} : Reads .comma ls a → Reads .suffixed (.sign "(" :: (ls ++ [.sign ")"])) a
  | int {s : String} : Reads .suffixed [.integer s] (.int (Binary64.digitsValue s.toList))
  | name {x : String} : Reads .suffixed [.identifier x] (.name x)
  | plainCall {f : String} : Reads .suffixed [.identifier f, .sign "(", .sign ")"] (.call f [])
  | call {f : String} {ls : List Lexeme} {a : Expr} {more : List (List Lexeme × Expr)} :
      Reads .assignment ls a → (∀ m ∈ more, Reads .assignment m.1 m.2) →
      Reads .suffixed (.identifier f :: .sign "(" :: (ls ++ more.flatMap (fun m => .sign "," :: m.1) ++ [.sign ")"]))
        (.call f (a :: more.map (·.2)))

/-- The alternatives of the levels, and what nodes are made of them. -/
inductive Row : Level → List Item → Option Kind → Prop
  | tighter {l : Level} (h : l ≠ .suffixed) : Row l [.level l.tighter] none
  | binary (op : BinaryOp) : Row op.level [.level op.level, .sign op.sign, .level op.level.tighter] (some op.kind)
  | assign : Row .assignment [.level .conditional, .sign "=", .level .assignment] (some .assign)
  | conditional : Row .conditional
      [.level .disjunction, .sign "?", .level .disjunction, .sign ":", .level .conditional] (some .conditional)
  | prefixed (op : PrefixOp) : Row .prefixed [.sign op.sign, .level .prefixed] (some op.kind)
  | cast : Row .prefixed [.rule .cast] none
  | suffixed (op : SuffixOp) : Row .suffixed [.level .suffixed, .sign op.sign] (some op.kind)
  | subscript : Row .suffixed [.level .suffixed, .sign "[", .level .comma, .sign "]"] (some .subscript)
  | paren : Row .suffixed [.sign "(", .level .comma, .sign ")"] none
  | primary (r : Rule) (h : r ∈ [Rule.name, .float, .integer, .character, .string, .call]) : Row .suffixed [.rule r] none

theorem mem_of_row {l : Level} {items : List Item} {kind : Option Kind} (h : Row l items kind) : items ∈ l.alternatives := by
  cases h with
  | tighter h =>
    cases l with
    | suffixed => exact absurd rfl h
    | _ => simp [Level.alternatives, Level.tighter, infixes]
  | binary op =>
    have hop : op ∈ op.level.operators := mem_operators.2 rfl
    rw [alternatives_of_operators (List.ne_nil_of_mem hop)]
    exact List.mem_append_left _ (List.mem_map.2 ⟨op.sign, List.mem_map_of_mem hop, rfl⟩)
  | prefixed op =>
    rcases op with op | _ | _ | _
    · cases op <;> simp [Level.alternatives, PrefixOp.sign, UnaryOp.sign]
    all_goals simp [Level.alternatives, PrefixOp.sign]
  | suffixed op => cases op <;> simp [Level.alternatives, SuffixOp.sign]
  | primary r h =>
    simp only [List.mem_cons, List.not_mem_nil, or_false] at h
    rcases h with rfl | rfl | rfl | rfl | rfl | rfl <;> simp [Level.alternatives]
  | _ => simp [Level.alternatives]

theorem row_of_mem {l : Level} {items : List Item} (h : items ∈ l.alternatives) : ∃ kind, Row l items kind := by
  by_cases hops : l.operators = []
  · cases l <;> simp [Level.operators, Level.alternatives] at hops h
    case assignment =>
      obtain rfl | rfl := h
      exacts [⟨_, .assign⟩, ⟨_, .tighter (by decide)⟩]
    case conditional =>
      obtain rfl | rfl := h
      exacts [⟨_, .conditional⟩, ⟨_, .tighter (by decide)⟩]
    case prefixed =>
      obtain rfl | rfl | rfl | rfl | rfl | rfl | rfl | rfl | rfl := h
      exacts [⟨_, .prefixed (.unary .increment)⟩, ⟨_, .prefixed (.unary .decrement)⟩, ⟨_, .prefixed (.unary .plus)⟩,
        ⟨_, .prefixed (.unary .minus)⟩, ⟨_, .prefixed .address⟩, ⟨_, .prefixed .dereference⟩, ⟨_, .prefixed .not⟩, ⟨_, .cast⟩,
        ⟨_, .tighter (by decide)⟩]
    case suffixed =>
      obtain rfl | rfl | rfl | rfl | rfl | rfl | rfl | rfl | rfl | rfl := h
      case inr.inr.inl => exact ⟨_, .subscript⟩
      case inl => exact ⟨_, .suffixed .increment⟩
      case inr.inl => exact ⟨_, .suffixed .decrement⟩
      case inr.inr.inr.inr.inr.inr.inr.inr.inl => exact ⟨_, .paren⟩
      all_goals exact ⟨_, .primary _ (by decide)⟩
  · rw [alternatives_of_operators hops, infixes, List.mem_append, List.mem_singleton] at h
    obtain h | rfl := h
    · obtain ⟨s, hs, rfl⟩ := List.mem_map.1 h
      obtain ⟨op, hop, rfl⟩ := List.mem_map.1 hs
      obtain rfl := mem_operators.1 hop
      exact ⟨_, .binary op⟩
    · exact ⟨_, .tighter (by rintro rfl; exact hops rfl)⟩

/-! ### Rows of items -/

section
variable {D : Rule → ParseTree → List Lexeme → Prop} {r : Rule} {items rest : List Item} {t : ParseTree}
  {ts : List ParseTree} {ls : List Lexeme}

@[simp] theorem matches_nil : Matches D [] ts ls ↔ ts = [] ∧ ls = [] := by
  constructor
  · rintro ⟨⟩
    exact ⟨rfl, rfl⟩
  · rintro ⟨rfl, rfl⟩
    exact .nil

@[simp] theorem matches_token {is : Lexeme → Bool} :
    Matches D (.token is :: items) ts ls ↔
      ∃ t ts' l ls', ts = t :: ts' ∧ ls = l :: ls' ∧ is l = true ∧ Spells t l ∧ Matches D items ts' ls' := by
  constructor
  · rintro ⟨⟩
    exact ⟨_, _, _, _, rfl, rfl, ‹_›, ‹_›, ‹_›⟩
  · rintro ⟨t, ts', l, ls', rfl, rfl, hl, ht, h⟩
    exact .token hl ht h

@[simp] theorem matches_sign {s : String} :
    Matches D (.sign s :: items) ts ls ↔
      ∃ t ts' ls', ts = t :: ts' ∧ ls = .sign s :: ls' ∧ Spells t (.sign s) ∧ Matches D items ts' ls' := by
  simp only [Item.sign, matches_token, beq_iff_eq]
  constructor
  · rintro ⟨t, ts', _, ls', rfl, rfl, rfl, ht, h⟩
    exact ⟨t, ts', ls', rfl, rfl, ht, h⟩
  · rintro ⟨t, ts', ls', rfl, rfl, ht, h⟩
    exact ⟨t, ts', _, ls', rfl, rfl, rfl, ht, h⟩

@[simp] theorem matches_rule :
    Matches D (.rule r :: items) ts ls ↔
      ∃ t ts' ls1 ls2, ts = t :: ts' ∧ ls = ls1 ++ ls2 ∧ D r t ls1 ∧ Matches D items ts' ls2 := by
  constructor
  · rintro ⟨⟩
    exact ⟨_, _, _, _, rfl, rfl, ‹_›, ‹_›⟩
  · rintro ⟨t, ts', ls1, ls2, rfl, rfl, ht, h⟩
    exact .rule ht h

@[simp] theorem matches_level {l : Level} :
    Matches D (.level l :: items) ts ls ↔
      ∃ t ts' ls1 ls2, ts = t :: ts' ∧ ls = ls1 ++ ls2 ∧ D (.level l) t ls1 ∧ Matches D items ts' ls2 := matches_rule

/-- What stands for a repeated row falls into rounds. -/
@[simp] theorem matches_many :
    Matches D (.many items :: rest) ts ls ↔
      ∃ (rounds : List (List ParseTree × List Lexeme)) (ts' : List ParseTree) (ls' : List Lexeme),
        ts = rounds.flatMap (·.1) ++ ts' ∧ ls = rounds.flatMap (·.2) ++ ls' ∧
          (∀ x ∈ rounds, Matches D items x.1 x.2) ∧ Matches D rest ts' ls' := by
  constructor
  · intro h
    generalize hrow : Item.many items :: rest = row at h
    induction h with
    | nil | token | rule | either => simp at hrow
    | stop h =>
      obtain ⟨⟨rfl⟩, rfl⟩ := List.cons.inj hrow
      exact ⟨[], _, _, rfl, rfl, by simp, h⟩
    | @again _ _ ts1 _ ls1 _ h1 h2 _ ih =>
      obtain ⟨⟨rfl⟩, rfl⟩ := List.cons.inj hrow
      obtain ⟨rounds, ts', ls', rfl, rfl, hr, h⟩ := ih rfl
      refine ⟨(ts1, ls1) :: rounds, ts', ls', by simp, by simp, ?_, h⟩
      intro x hx
      obtain rfl | hx := List.mem_cons.1 hx
      · exact h1
      · exact hr x hx
  · rintro ⟨rounds, ts', ls', rfl, rfl, hr, h⟩
    induction rounds with
    | nil => exact .stop h
    | cons x rounds ih =>
      have hrest := ih fun y hy => hr y (List.mem_cons_of_mem x hy)
      simpa only [List.flatMap_cons, List.append_assoc] using Matches.again (hr x List.mem_cons_self) hrest

/-- Induction over parse trees, with the trees that stand for an alternative at hand. -/
theorem derives_induct {P : Rule → ParseTree → List Lexeme → Prop}
    (h : ∀ {r info items ts ls}, r.IsOf info → items ∈ r.alternatives → Matches P items ts ls → P r (.node info ts) ls)
    (ht : Derives r t ls) : P r t ls :=
  @Derives.rec (fun r t ls _ => P r t ls) (fun items ts ls _ => Matches P items ts ls)
    (fun hinfo hitems _ ih => h hinfo hitems ih) .nil (fun hl ht _ ih => .token hl ht ih) (fun _ _ ht ih => .rule ht ih)
    (fun _ ih => .stop ih) (fun _ _ ih ih' => .again ih ih') (fun hrow _ _ ih ih' => .either hrow ih ih') r t ls ht

theorem Matches.last (h : D r t ls) : Matches D [.rule r] [t] ls := by simpa using h

theorem Matches.only (h : Matches D [.rule r] ts ls) : ∃ t, ts = [t] ∧ D r t ls := by
  simp only [matches_rule, matches_nil] at h
  obtain ⟨t, _, ls, _, rfl, rfl, ht, rfl, rfl⟩ := h
  exact ⟨t, rfl, by rwa [List.append_nil]⟩

theorem Matches.leaf {is : Lexeme → Bool} (h : Matches D [.token is] ts ls) :
    ∃ t l, ts = [t] ∧ ls = [l] ∧ is l = true ∧ Spells t l := by
  simp only [matches_token, matches_nil] at h
  obtain ⟨t, _, l, _, rfl, rfl, hl, ht, rfl, rfl⟩ := h
  exact ⟨t, l, rfl, rfl, hl, ht⟩

theorem Matches.sign {s : String} (ht : Spells t (.sign s)) (h : Matches D items ts ls) :
    Matches D (.sign s :: items) (t :: ts) (.sign s :: ls) := matches_sign.2 ⟨t, ts, ls, rfl, rfl, ht, h⟩

end

end MiniC.Phrase
