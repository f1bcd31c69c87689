import Mathlib.Algebra.Group.Nat.Defs
import MiniC.Proofs.Phrase.Building

/-!
# Writing expressions

`Expr.lexemes` writes an expression with as few brackets as the grammar allows: an operand is put in brackets exactly if
its operator is looser than the level at this place. What is written is read as the expression (`reads_lexemes`), and
every text that is read has a parse tree (`exists_tree`).
-/

namespace MiniC.Phrase

/-- The number of a level; looser operators have larger numbers. -/
def Level.rank : Level → Nat
  | comma => 15
  | assignment => 14
  | conditional => 13
  | disjunction => 12
  | conjunction => 11
  | equality => 7
  | relation => 6
  | sum => 4
  | product => 3
  | prefixed => 2
  | suffixed => 1

/-- The level of the outermost operator. -/
def Expr.level : Expr → Level
  | binary op .. => op.level
  | assign .. => .assignment
  | conditional .. => .conditional
  | cast .. | prefixed .. => .prefixed
  | int _ | name _ | call .. | suffixed .. | subscript .. => .suffixed

/-- Lexemes at a place for a level, in brackets if their own level is looser. -/
def placed (place own : Level) (ls : List Lexeme) : List Lexeme :=
  if own.rank ≤ place.rank then ls else .sign "(" :: (ls ++ [.sign ")"])

mutual

def Expr.lexemes : Expr → List Lexeme
  | .int value => [.integer (toString value)]
  | .name x => [.identifier x]
  | .call f args => .identifier f :: .sign "(" :: (lexemesAll args ++ [.sign ")"])
  | .cast w stars e =>
    .sign "(" :: .sign w.text :: (List.replicate stars (.sign "*") ++ .sign ")" :: placed .prefixed e.level e.lexemes)
  | .prefixed op e => .sign op.sign :: placed .prefixed e.level e.lexemes
  | .suffixed op e => placed .suffixed e.level e.lexemes ++ [.sign op.sign]
  | .subscript a i =>
    placed .suffixed a.level a.lexemes ++ .sign "[" :: (placed .comma i.level i.lexemes ++ [.sign "]"])
  | .binary op a b =>
    placed op.level a.level a.lexemes ++ .sign op.sign :: placed op.level.tighter b.level b.lexemes
  | .assign a b => placed .conditional a.level a.lexemes ++ .sign "=" :: placed .assignment b.level b.lexemes
  | .conditional c a b =>
    placed .disjunction c.level c.lexemes ++ .sign "?" :: (placed .disjunction a.level a.lexemes
      ++ .sign ":" :: placed .conditional b.level b.lexemes)

/-- Arguments, with commas between them. -/
def lexemesAll : List Expr → List Lexeme
  | [] => []
  | e :: es => placed .assignment e.level e.lexemes ++ lexemesMore es

/-- Arguments, with a comma before each of them. -/
def lexemesMore : List Expr → List Lexeme
  | [] => []
  | e :: es => .sign "," :: (placed .assignment e.level e.lexemes ++ lexemesMore es)

end

/-! ### Literals -/

theorem toList_toString (value : Nat) : (toString value).toList = Nat.toDigits 10 value := by
  rw [Nat.toString_eq_ofList_toDigits, String.toList_ofList]

theorem digitsValue_toString (value : Nat) : Binary64.digitsValue (toString value).toList = value := by
  have hfold : Nat.ofDigitChars 10 (Nat.toDigits 10 value) 0 = _ := Nat.ofDigitChars_eq_foldl
  rw [Nat.ofDigitChars_ten_toDigits] at hfold
  rw [toList_toString, Binary64.digitsValue]
  simpa only [Nat.mul_comm] using hfold.symm

/-! ### Trees for what is written -/

theorem exists_info (r : Rule) : ∃ info, r.IsOf info := by
  have hmem : r.ruleName ∈ Grammar.c.ruleNames.toList := by
    cases r with
    | level l => cases l <;> decide
    | header p => cases p <;> decide
    | initializer array => decide +revert
    | _ => decide
  obtain ⟨i, hi, hname⟩ := Array.getElem_of_mem (Array.mem_toList_iff.1 hmem)
  refine ⟨{ rule := i, label := r.label? }, ?_, fun _ h => h⟩
  rw [← hname]
  simp [entryAt?, placeAt, hi]

/-- The signs and words that expressions are written with. -/
def signs : List String :=
  [",", "=", "?", ":", "||", "&&", "==", "!=", "<", "<=", ">", ">=", "+", "-", "*", "/", "%", "++", "--", "&", "!", "[", "]",
    "(", ")", "char", "float", "int", "void"]

theorem PrefixOp.sign_mem (op : PrefixOp) : op.sign ∈ signs := by
  rcases op with op | _ | _ | _
  · cases op <;> decide
  all_goals decide

theorem BinaryOp.sign_mem (op : BinaryOp) : op.sign ∈ signs := by
  rcases op with _ | op | op | op
  · decide
  all_goals cases op <;> decide

theorem exists_leaf {l : Lexeme} (h : (Grammar.c.tokenType? l.typeName).isSome) : ∃ t, Spells t l := by
  obtain ⟨type, htype⟩ := Option.isSome_iff_exists.1 h
  exact ⟨.leaf { type, text := some l.text } false, { type, text := some l.text }, rfl, rfl, htype⟩

/-- The grammar knows the types of all tokens that expressions are written with. -/
theorem isSome_tokenType? :
    ∀ name ∈ "IDENTIFIER" :: "INTEGER" :: signs.map (fun s => (Lexeme.sign s).typeName),
      (Grammar.c.tokenType? name).isSome := by
  decide +kernel

theorem exists_sign {s : String} (h : s ∈ signs) : ∃ t, Spells t (.sign s) := by
  refine exists_leaf (isSome_tokenType? _ ?_)
  exact List.mem_cons_of_mem _ (List.mem_cons_of_mem _ (List.mem_map_of_mem h))

/-- Lexemes are those of some tree of a rule. -/
def HasTree (r : Rule) (ls : List Lexeme) : Prop := ∃ t, Derives r t ls

def HasTrees (items : List Item) (ls : List Lexeme) : Prop := ∃ ts, Matches Derives items ts ls

section
variable {r : Rule} {items : List Item} {l : Level} {ls ls' : List Lexeme} {e : Expr}

theorem HasTrees.tree (h : HasTrees items ls) (hitems : items ∈ r.alternatives) : HasTree r ls := by
  obtain ⟨ts, h⟩ := h
  obtain ⟨info, hinfo⟩ := exists_info r
  exact ⟨.node info ts, .node hinfo hitems h⟩

theorem hasTrees_nil : HasTrees [] [] := ⟨[], .nil⟩

theorem HasTree.cons (h : HasTree r ls) (hs : HasTrees items ls') : HasTrees (.rule r :: items) (ls ++ ls') := by
  obtain ⟨t, h⟩ := h
  obtain ⟨ts, hs⟩ := hs
  exact ⟨t :: ts, .rule h hs⟩

theorem HasTree.last (h : HasTree r ls) : HasTrees [.rule r] ls := by
  obtain ⟨t, h⟩ := h
  exact ⟨[t], .last h⟩

theorem HasTrees.sign {s : String} (hs : s ∈ signs) (h : HasTrees items ls) : HasTrees (.sign s :: items) (.sign s :: ls) := by
  obtain ⟨t, ht⟩ := exists_sign hs
  obtain ⟨ts, h⟩ := h
  exact ⟨t :: ts, .sign ht h⟩

theorem HasTrees.stop {row : List Item} (h : HasTrees items ls) : HasTrees (.many row :: items) ls := by
  obtain ⟨ts, h⟩ := h
  exact ⟨ts, .stop h⟩

theorem HasTrees.again {row : List Item} (h : HasTrees row ls) (hs : HasTrees (.many row :: items) ls') :
    HasTrees (.many row :: items) (ls ++ ls') := by
  obtain ⟨ts, h⟩ := h
  obtain ⟨ts', hs⟩ := hs
  exact ⟨ts ++ ts', .again h hs⟩

theorem Row.tree {kind : Option Kind} (hrow : Row l items kind) (h : HasTrees items ls) : HasTree (.level l) ls :=
  h.tree (mem_of_row hrow)

theorem hasTree_identifier (x : String) : HasTree .identifier [.identifier x] := by
  obtain ⟨leaf, hleaf⟩ := exists_leaf (l := .identifier x) (isSome_tokenType? _ (by simp [Lexeme.typeName]))
  exact HasTrees.tree ⟨[leaf], .token rfl hleaf .nil⟩ List.mem_cons_self

theorem hasTree_specifier (w : TypeWord) : HasTree .specifier [.sign w.text] := by
  have hmem : [Item.sign w.text] ∈ Rule.typeWord.alternatives := by cases w <;> simp [Rule.alternatives, TypeWord.text]
  have hword : HasTree .typeWord [.sign w.text] := (HasTrees.sign (by cases w <;> decide) hasTrees_nil).tree hmem
  exact hword.last.tree List.mem_cons_self

/-- The rest of a cast. -/
theorem hasTrees_cast (ws : List TypeWord) (stars : Nat) (h : HasTree (.level .prefixed) ls) :
    HasTrees [.many [.rule .specifier], .many [.rule .pointerPart], .sign ")", .level .prefixed]
      (ws.map (fun w => .sign w.text) ++ List.replicate stars (.sign "*") ++ .sign ")" :: ls) := by
  induction ws with
  | nil =>
    refine .stop ?_
    induction stars with
    | zero => exact .stop (.sign (by decide) h.last)
    | succ stars ih =>
      have hstar : HasTree .pointerPart [.sign "*"] := (HasTrees.sign (by decide) hasTrees_nil).tree List.mem_cons_self
      exact hstar.last.again ih
  | cons w ws ih => exact (hasTree_specifier w).last.again ih

theorem hasTrees_arguments {more : List (List Lexeme × Expr)} (h : ∀ m ∈ more, HasTree (.level .assignment) m.1) :
    HasTrees [.many [.sign ",", .level .assignment]] (more.flatMap fun m => .sign "," :: m.1) := by
  induction more with
  | nil => exact .stop hasTrees_nil
  | cons m more ih =>
    obtain ⟨hm, hmore⟩ := List.forall_mem_cons.1 h
    exact (HasTrees.sign (by decide) hm.last).again (ih hmore)

theorem hasTree_call {f : String} (h : HasTree .arguments ls) :
    HasTree (.level .suffixed) (.identifier f :: .sign "(" :: (ls ++ [.sign ")"])) := by
  have hcall : HasTree .call _ := ((hasTree_identifier f).cons (.sign (by decide) (h.cons (.sign (by decide) hasTrees_nil)))).tree
    List.mem_cons_self
  exact (Row.primary .call (by decide)).tree hcall.last

/-- What is read has a parse tree. -/
theorem exists_tree (h : Reads l ls e) : HasTree (.level l) ls := by
  induction h with
  | tighter hl _ ih => exact (Row.tighter hl).tree ih.last
  | @binary op _ _ _ _ _ _ ih1 ih2 => exact (Row.binary op).tree (ih1.cons (.sign op.sign_mem ih2.last))
  | assign _ _ ih1 ih2 => exact Row.assign.tree (ih1.cons (.sign (by decide) ih2.last))
  | conditional _ _ _ ih1 ih2 ih3 =>
    exact Row.conditional.tree (ih1.cons (.sign (by decide) (ih2.cons (.sign (by decide) ih3.last))))
  | @prefixed op _ _ _ ih => exact (Row.prefixed op).tree (.sign op.sign_mem ih.last)
  | @cast ws w stars ls a _ ih =>
    obtain ⟨w', ws', hws⟩ := List.exists_cons_of_ne_nil (List.append_ne_nil_of_right_ne_nil ws (List.cons_ne_nil w []))
    rw [hws]
    have hcast : HasTree .cast _ := (HasTrees.sign (by decide) ((hasTree_specifier w').cons (hasTrees_cast ws' stars ih))).tree
      List.mem_cons_self
    exact Row.cast.tree hcast.last
  | @suffixed op _ _ _ ih => exact (Row.suffixed op).tree (ih.cons (.sign (by cases op <;> decide) hasTrees_nil))
  | subscript _ _ ih1 ih2 => exact Row.subscript.tree (ih1.cons (.sign (by decide) (ih2.cons (.sign (by decide) hasTrees_nil))))
  | paren _ ih => exact Row.paren.tree (.sign (by decide) (ih.cons (.sign (by decide) hasTrees_nil)))
  | @int s =>
    obtain ⟨leaf, hleaf⟩ := exists_leaf (l := .integer s) (isSome_tokenType? _ (by simp [Lexeme.typeName]))
    have hint : HasTree .integer [.integer s] := HasTrees.tree ⟨[leaf], .token rfl hleaf .nil⟩ List.mem_cons_self
    exact (Row.primary .integer (by decide)).tree hint.last
  | @name x =>
    have hname : HasTree .name [.identifier x] := (hasTree_identifier x).last.tree List.mem_cons_self
    exact (Row.primary .name (by decide)).tree hname.last
  | plainCall => exact hasTree_call (hasTrees_nil.tree (List.mem_cons_of_mem _ List.mem_cons_self))
  | call _ _ ih ihs => exact hasTree_call ((ih.cons (hasTrees_arguments ihs)).tree List.mem_cons_self)

/-! ### What is written is read -/

theorem Reads.within (h : Reads l ls e) (place : Level) (hrank : l.rank ≤ place.rank) : Reads place ls e := by
  induction hn : place.rank using Nat.strongRecOn generalizing place with
  | ind n ih =>
    by_cases heq : l = place
    · exact heq ▸ h
    have hless : place ≠ .suffixed ∧ place.tighter.rank < place.rank ∧ l.rank ≤ place.tighter.rank := by
      revert heq hrank
      cases place <;> cases l <;> decide
    exact .tighter hless.1 (ih _ (hn ▸ hless.2.1) _ hless.2.2 rfl)

/-- At any place, an expression is written so that it is read. -/
theorem Reads.placed (h : Reads e.level e.lexemes e) (place : Level) : Reads place (placed place e.level e.lexemes) e := by
  unfold Phrase.placed
  split
  · exact h.within place ‹_›
  · have hparen := Reads.paren (h.within .comma (by cases e.level <;> decide))
    exact hparen.within place (by cases place <;> decide)

end

mutual

/-- What is written for an expression is read as the expression. -/
theorem reads_lexemes : (e : Expr) → Reads e.level e.lexemes e
  | .int value => by
    have hint := @Reads.int (toString value)
    rwa [digitsValue_toString] at hint
  | .name x => .name
  | .call f [] => .plainCall
  | .call f (e :: es) => by
    obtain ⟨more, hls, hes, hmore⟩ := reads_lexemesMore es
    rw [Expr.lexemes, lexemesAll, hls, hes]
    exact .call ((reads_lexemes e).placed .assignment) hmore
  | .cast w stars e => @Reads.cast [] w stars _ _ ((reads_lexemes e).placed .prefixed)
  | .prefixed op e => .prefixed ((reads_lexemes e).placed .prefixed)
  | .suffixed op e => .suffixed ((reads_lexemes e).placed .suffixed)
  | .subscript a i => .subscript ((reads_lexemes a).placed .suffixed) ((reads_lexemes i).placed .comma)
  | .binary op a b => .binary ((reads_lexemes a).placed op.level) ((reads_lexemes b).placed op.level.tighter)
  | .assign a b => .assign ((reads_lexemes a).placed .conditional) ((reads_lexemes b).placed .assignment)
  | .conditional c a b =>
    .conditional ((reads_lexemes c).placed .disjunction) ((reads_lexemes a).placed .disjunction)
      ((reads_lexemes b).placed .conditional)

theorem reads_lexemesMore : (es : List Expr) → ∃ more : List (List Lexeme × Expr),
    lexemesMore es = more.flatMap (fun m => .sign "," :: m.1) ∧ es = more.map (·.2) ∧ ∀ m ∈ more, Reads .assignment m.1 m.2
  | [] => ⟨[], rfl, rfl, by simp⟩
  | e :: es => by
    obtain ⟨more, hls, hes, hmore⟩ := reads_lexemesMore es
    refine ⟨(_, e) :: more, ?_, by simp [← hes], List.forall_mem_cons.2 ⟨(reads_lexemes e).placed .assignment, hmore⟩⟩
    rw [lexemesMore, hls]
    rfl

end

end MiniC.Phrase
