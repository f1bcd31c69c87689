import MiniC.Proofs.Phrase.Growing

/-!
# Building expressions

A parse tree of a level stands for an expression (`exists_stands`), as long as its text is plain: it has no constant types
and no literals other than integers. Its lexemes are read as the expression, and below an open node that takes one more
child it is built into one node, of the form of the expression. The argument goes up the tree, rule by rule (`meaning`).
-/

namespace MiniC.Phrase

open Builder
open List (append_nil forall_mem_append forall_mem_cons)

variable {info : RuleInfo} {t : ParseTree} {ts : List ParseTree} {ls : List Lexeme} {l : Level} {items : List Item}

mutual

/-- The form of the tree of an expression. -/
def Expr.outline : Expr → Outline
  | .int value => .mk (.integer value) []
  | .name x => .mk (.name x none none) []
  | .call f args => .mk (.call (some f) none none) [.mk .arguments (outlineAll args)]
  | .cast w stars e =>
    .mk (.cast { base := w.base, typed := true } (List.replicate stars ⟨.scalar, false⟩)) [e.outline]
  | .prefixed op e => .mk op.kind [e.outline]
  | .suffixed op e => .mk op.kind [e.outline]
  | .subscript a i => .mk .subscript [a.outline, i.outline]
  | .binary op a b => .mk op.kind [a.outline, b.outline]
  | .assign a b => .mk .assign [a.outline, b.outline]
  | .conditional c a b => .mk .conditional [c.outline, a.outline, b.outline]

def outlineAll : List Expr → List Outline
  | [] => []
  | e :: es => e.outline :: outlineAll es

end

theorem outlineAll_eq (es : List Expr) : outlineAll es = es.map Expr.outline := by
  induction es with
  | nil => rfl
  | cons e es ih => rw [outlineAll, ih, List.map_cons]

@[simp] theorem isExpression_outline (e : Expr) : e.outline.kind.isExpression = true := by
  cases e with
  | prefixed op => cases op <;> rfl
  | suffixed op => cases op <;> rfl
  | binary op => cases op <;> rfl
  | _ => rfl

/-! ### Entering a rule -/

def Level.form : Level → Form
  | comma => .comma
  | assignment => .assignment
  | conditional => .conditional
  | disjunction => .disjunction
  | conjunction => .conjunction
  | equality => .equality
  | relation => .relation
  | sum => .sum
  | product => .product
  | prefixed => .prefixed
  | suffixed => .suffixed

theorem Rule.IsOf.form {r : Rule} (h : r.IsOf info) : Form.ofRule info.rule = Form.ofName r.ruleName := by
  have hmap : ∀ (xs : Array String) (i : Int), entryAt? (xs.map Form.ofName) i = (entryAt? xs i).map Form.ofName := by
    intro xs i
    simp only [entryAt?, Array.size_map]
    cases placeAt xs.size i <;> simp
  rw [Form.ofRule, Form.table, hmap, h.1]
  rfl

theorem Rule.IsOf.level (h : (Rule.level l).IsOf info) : Form.ofRule info.rule = l.form := by
  rw [h.form]
  cases l <;> rfl

section
variable {l : Lexeme}

theorem Spells.text (h : Spells t l) : t.text = l.text := by
  obtain ⟨token, rfl, htext, -⟩ := h
  simp [ParseTree.text, htext]

theorem Spells.isLeaf (h : Spells t l) : t.isLeaf = true := by
  obtain ⟨token, rfl, -⟩ := h
  rfl

theorem Spells.textAll (h : Spells t l) : ParseTree.textAll [t] = l.text := by
  simp [ParseTree.textAll, h.text]

end

section
variable {b : Builder} {t1 t2 : ParseTree} {kind : Kind}

/-- A row of two operands with a sign between them. -/
theorem enter_sign {form : Form}
    (hform : form ∈ [.assignment, .disjunction, .conjunction, .equality, .relation, .sum, .product]) (hleaf : t.isLeaf = true)
    (h : binaryKind form t.text = some kind) :
    b.enter form (.node info [t1, t, t2]) = b.openNode (pure kind) (some (.node info [t1, t, t2])) := by
  simp only [List.mem_cons, List.not_mem_nil, or_false] at hform
  have henter : b.enter form (.node info [t1, t, t2]) = b.enterOperator form (.node info [t1, t, t2]) := by
    rcases hform with rfl | rfl | rfl | rfl | rfl | rfl | rfl <;> rfl
  rw [henter, enterOperator.eq_def]
  -- only comparisons ask for a leaf between the operands
  rcases hform with rfl | rfl | rfl | rfl | rfl | rfl | rfl <;> simp only [ParseTree.children, h, hleaf, if_true]

theorem enter_binary {op : BinaryOp} (ht : Spells t (.sign op.sign)) :
    b.enter op.level.form (.node info [t1, t, t2]) = b.openNode (pure op.kind) (some (.node info [t1, t, t2])) := by
  have htext : t.text = op.sign := ht.text
  rcases op with _ | op | op | op
  · rfl
  all_goals
    refine enter_sign ?_ ht.isLeaf ?_
    · cases op <;> decide
    · rw [htext]
      cases op <;> rfl

theorem enter_prefixed {op : PrefixOp} (ht : Spells t (.sign op.sign)) :
    b.enter .prefixed (.node info [t, t1]) = b.openNode (pure op.kind) (some (.node info [t, t1])) := by
  have htext : t.text = op.sign := ht.text
  show b.enterOperator .prefixed (.node info [t, t1]) = _
  rw [enterOperator.eq_def]
  simp only [ParseTree.children, htext]
  rcases op with op | _ | _ | _
  · cases op <;> rfl
  all_goals rfl

theorem enter_suffixed {op : SuffixOp} (ht : Spells t (.sign op.sign)) :
    b.enter .suffixed (.node info [t1, t]) = b.openNode (pure op.kind) (some (.node info [t1, t])) := by
  have htext : t.text = op.sign := ht.text
  show b.enterOperator .suffixed (.node info [t1, t]) = _
  rw [enterOperator.eq_def]
  simp only [ParseTree.children, htext]
  cases op <;> rfl

end

/-- A level makes a node or leaves no trace, as its alternative says. -/
theorem enter_row {D : Rule → ParseTree → List Lexeme → Prop} {kind : Option Kind} (hrow : Row l items kind)
    (h : Matches D items ts ls) (b : Builder) : b.enter l.form (.node info ts) =
      kind.elim (.ok (b, .nothing)) fun kind => b.openNode (pure kind) (some (.node info ts)) := by
  cases hrow with
  | tighter =>
    obtain ⟨t, rfl, -⟩ := h.only
    cases l <;> rfl
  | binary op =>
    simp only [matches_level, matches_sign, matches_nil] at h
    obtain ⟨t1, _, _, _, rfl, -, -, t, _, _, rfl, -, ht, t2, _, _, _, rfl, -, -, rfl, -⟩ := h
    exact enter_binary ht
  | assign =>
    simp only [matches_level, matches_sign, matches_nil] at h
    obtain ⟨t1, _, _, _, rfl, -, -, t, _, _, rfl, -, ht, t2, _, _, _, rfl, -, -, rfl, -⟩ := h
    have htext : t.text = "=" := ht.text
    exact enter_sign (by decide) ht.isLeaf (by rw [htext]; rfl)
  | conditional =>
    simp only [matches_level, matches_sign, matches_nil] at h
    obtain ⟨t1, _, _, _, rfl, -, -, t, _, _, rfl, -, ht, t2, _, _, _, rfl, -, -, t', _, _, rfl, -, ht', t3, _, _, _, rfl, -, -,
      rfl, -⟩ := h
    show (if t.text == "?" && t'.text == ":" then _ else _) = _
    rw [ht.text, ht'.text]
    rfl
  | prefixed op =>
    simp only [matches_level, matches_sign, matches_nil] at h
    obtain ⟨t, _, _, rfl, -, ht, t1, _, _, _, rfl, -, -, rfl, -⟩ := h
    exact enter_prefixed ht
  | suffixed op =>
    simp only [matches_level, matches_sign, matches_nil] at h
    obtain ⟨t1, _, _, _, rfl, -, -, t, _, _, rfl, -, ht, rfl, -⟩ := h
    exact enter_suffixed ht
  | subscript =>
    simp only [matches_level, matches_sign, matches_nil] at h
    obtain ⟨t1, _, _, _, rfl, -, -, t, _, _, rfl, -, ht, t2, _, _, _, rfl, -, -, t', _, _, rfl, -, ht', rfl, -⟩ := h
    show (if t.text == "[" && t'.text == "]" then _ else _) = _
    rw [ht.text, ht'.text]
    rfl
  | paren =>
    simp only [matches_level, matches_sign, matches_nil] at h
    obtain ⟨t, _, _, rfl, -, -, t1, _, _, _, rfl, -, -, t', _, _, rfl, -, -, rfl, -⟩ := h
    rfl
  | cast | primary =>
    obtain ⟨t, rfl, -⟩ := h.only
    rfl

/-- A tree of a level, after the trees below it. -/
theorem grows_row {D : Rule → ParseTree → List Lexeme → Prop} {kind : Option Kind} (os : List Outline)
    (hinfo : (Rule.level l).IsOf info) (hrow : Row l items kind) (h : Matches D items ts ls)
    (hs : Grows (·.walkAll ts) false .none os) (hadmits : ∀ k ∈ kind, k.admits (os.map Outline.kind) = true) :
    Grows (·.walk (.node info ts)) false .none (kind.elim os fun k => [.mk k os]) := by
  have henter : ∀ b : Builder, b.enter l.form (.node info ts) = _ := enter_row hrow h
  rw [← hinfo.level] at henter
  cases kind with
  | none =>
    refine grows_through (f := .none) (fun b _ _ _ _ => (henter b).trans ?_) hs
    rw [mapTop_none]
    rfl
  | some k =>
    have hk : k.takesArrays = false ∧ k.isFor = false := by
      cases hrow with
      | binary op | prefixed op | suffixed op => cases op <;> exact ⟨rfl, rfl⟩
      | _ => exact ⟨rfl, rfl⟩
    rw [← hk.1] at hs
    exact grows_made k (fun b _ _ _ _ => henter b) hs rfl hk.2 (hadmits k rfl)

/-! ### What trees stand for -/

/-- A lexeme that expressions over names and integers are made of. -/
def Lexeme.isPlain : Lexeme → Bool
  | sign s => s != "const"
  | identifier _ | integer _ => true
  | _ => false

/-- A text of digits that is not too long. -/
def IsLiteral (s : String) : Prop := integerKind s = .ok (.integer (Binary64.digitsValue s.toList))

/-- The text of a literal has a value. -/
def Lexeme.Converts : Lexeme → Prop
  | integer s => IsLiteral s
  | string s => ∃ codes, Escape.decode (unquoted s) = .ok codes
  | _ => True

/-- A tree is built into an expression that its lexemes are read as. If all of it is an integer that is too long, it is
refused. -/
structure Stands (l : Level) (t : ParseTree) (ls : List Lexeme) (e : Expr) : Prop where
  reads : Reads l ls e
  grows : (∀ x ∈ ls, x.Converts) → Grows (·.walk t) false .none [e.outline]
  refused : ∀ s fault, ls = [.integer s] → integerKind s = .error fault → ∀ b : Builder,
    b.walk t = .error (if b.opened.isEmpty then .missing else fault)

def Tuning.word (w : TypeWord) : Tuning := .specified fun s => { s with base := w.base, typed := true }

/-- What is known of the trees of a rule. -/
def Meaning : Rule → ParseTree → List Lexeme → Prop
  | .level l, t, ls => ∃ e, Stands l t ls e
  | .cast, t, ls => ∃ e, Stands .prefixed t ls e
  | .name, t, ls | .integer, t, ls | .call, t, ls => ∃ e, Stands .suffixed t ls e
  | .arguments, t, ls => ∃ es : List Expr,
      (∀ f, Reads .suffixed (.identifier f :: .sign "(" :: (ls ++ [.sign ")"])) (.call f es)) ∧
      ((∀ x ∈ ls, x.Converts) → Grows (·.walk t) false .none [.mk .arguments (es.map Expr.outline)])
  | .identifier, t, ls => ∃ x, ls = [.identifier x] ∧ Grows (·.walk t) false (.named x) []
  | .specifier, t, ls | .typeWord, t, ls => ∃ w : TypeWord, ls = [.sign w.text] ∧ Grows (·.walk t) false (Tuning.word w) []
  | .pointerPart, t, ls => ls = [.sign "*"] ∧ Grows (·.walk t) false (.pointed ⟨.scalar, false⟩) []
  | .float, _, _ | .character, _, _ | .string, _, _ | .constWord, _, _ => False
  | _, _, _ => True

/-- What is known of a tree with a plain text. -/
def Known (r : Rule) (t : ParseTree) (ls : List Lexeme) : Prop := (∀ x ∈ ls, x.isPlain = true) → Meaning r t ls

/-! ### The levels -/

section
variable {l' : Level} {r : Rule} {child : ParseTree} {e : Expr} {kind : Option Kind}

/-- A level that leaves no trace stands for what the tree below it stands for. -/
theorem Stands.through (hinfo : (Rule.level l).IsOf info) (hrow : Row l [.rule r] none)
    (h : Matches Known [.rule r] [child] ls) (hchild : Stands l' child ls e) (hreads : Reads l ls e) :
    Stands l (.node info [child]) ls e := by
  refine ⟨hreads, fun hlit => grows_row _ hinfo hrow h (.one (hchild.grows hlit) grows_nil) (by simp), fun s fault hls hs b => ?_⟩
  rw [walk, hinfo.level, enter_row hrow h b]
  show (do let b ← b.walkAll [child]; b.leave .nothing) = _
  rw [walkAll, hchild.refused s fault hls hs]
  rfl

/-- A kind that takes operands takes those that are built from expressions. -/
theorem admits_operands {k : Kind} (es : List Expr)
    (h : ∀ ks, k.admits ks = Kind.fits (es.map fun _ => Kind.isExpression) ks) :
    ∀ k' ∈ some k, k'.admits ((es.map Expr.outline).map Outline.kind) = true := by
  rintro _ ⟨⟩
  rw [h]
  clear h
  induction es with
  | nil => rfl
  | cons e es ih => simpa [Kind.fits] using ih

theorem stands_level (hinfo : (Rule.level l).IsOf info) (hrow : Row l items kind) (h : Matches Known items ts ls)
    (hplain : ∀ x ∈ ls, x.isPlain = true) : ∃ e, Stands l (.node info ts) ls e := by
  have hgrows := fun os => grows_row os hinfo hrow h
  cases hrow with
  | tighter hl =>
    have hrow : Row l [.rule (.level l.tighter)] none := .tighter hl
    obtain ⟨child, rfl, hchild⟩ := h.only
    obtain ⟨e, he⟩ := hchild hplain
    exact ⟨e, he.through hinfo hrow h (.tighter hl he.reads)⟩
  | binary op =>
    simp only [matches_level, matches_sign, matches_nil] at h
    obtain ⟨t1, _, ls1, _, rfl, rfl, h1, t, _, _, rfl, rfl, ht, t2, _, ls2, _, rfl, rfl, h2, rfl, rfl⟩ := h
    simp only [append_nil, forall_mem_append, forall_mem_cons] at hplain ⊢
    obtain ⟨a, ha⟩ := h1 hplain.1
    obtain ⟨b, hb⟩ := h2 hplain.2.2
    refine ⟨_, .binary ha.reads hb.reads, fun hlit => ?_, by simp [List.append_eq_singleton_iff]⟩
    simp only [forall_mem_append, forall_mem_cons] at hlit
    exact hgrows _ (.one (ha.grows hlit.1) (.leaf ht (.one (hb.grows hlit.2.2) grows_nil)))
      (admits_operands [a, b] fun _ => by cases op <;> rfl)
  | assign =>
    simp only [matches_level, matches_sign, matches_nil] at h
    obtain ⟨t1, _, ls1, _, rfl, rfl, h1, t, _, _, rfl, rfl, ht, t2, _, ls2, _, rfl, rfl, h2, rfl, rfl⟩ := h
    simp only [append_nil, forall_mem_append, forall_mem_cons] at hplain ⊢
    obtain ⟨a, ha⟩ := h1 hplain.1
    obtain ⟨b, hb⟩ := h2 hplain.2.2
    refine ⟨_, .assign ha.reads hb.reads, fun hlit => ?_, by simp [List.append_eq_singleton_iff]⟩
    simp only [forall_mem_append, forall_mem_cons] at hlit
    exact hgrows _ (.one (ha.grows hlit.1) (.leaf ht (.one (hb.grows hlit.2.2) grows_nil)))
      (admits_operands [a, b] fun _ => rfl)
  | conditional =>
    simp only [matches_level, matches_sign, matches_nil] at h
    obtain ⟨t1, _, ls1, _, rfl, rfl, h1, t, _, _, rfl, rfl, ht, t2, _, ls2, _, rfl, rfl, h2, t', _, _, rfl, rfl, ht',
      t3, _, ls3, _, rfl, rfl, h3, rfl, rfl⟩ := h
    simp only [append_nil, forall_mem_append, forall_mem_cons] at hplain ⊢
    obtain ⟨hp1, -, hp2, -, hp3⟩ := hplain
    obtain ⟨c, hc⟩ := h1 hp1
    obtain ⟨a, ha⟩ := h2 hp2
    obtain ⟨b, hb⟩ := h3 hp3
    refine ⟨_, .conditional hc.reads ha.reads hb.reads, fun hlit => ?_, by simp [List.append_eq_singleton_iff]⟩
    simp only [forall_mem_append, forall_mem_cons] at hlit
    exact hgrows _ (.one (hc.grows hlit.1) (.leaf ht (.one (ha.grows hlit.2.2.1) (.leaf ht'
      (.one (hb.grows hlit.2.2.2.2) grows_nil))))) (admits_operands [c, a, b] fun _ => rfl)
  | prefixed op =>
    simp only [matches_level, matches_sign, matches_nil] at h
    obtain ⟨t, _, _, rfl, rfl, ht, t1, _, ls, _, rfl, rfl, h1, rfl, rfl⟩ := h
    simp only [append_nil, forall_mem_cons] at hplain ⊢
    obtain ⟨a, ha⟩ := h1 hplain.2
    refine ⟨_, .prefixed ha.reads, fun hlit => ?_, by simp⟩
    exact hgrows _ (.leaf ht (.one (ha.grows (forall_mem_cons.1 hlit).2) grows_nil))
      (admits_operands [a] fun _ => by cases op <;> rfl)
  | suffixed op =>
    simp only [matches_level, matches_sign, matches_nil] at h
    obtain ⟨t1, _, ls, _, rfl, rfl, h1, t, _, _, rfl, rfl, ht, rfl, rfl⟩ := h
    obtain ⟨a, ha⟩ := h1 (forall_mem_append.1 hplain).1
    refine ⟨_, .suffixed ha.reads, fun hlit => ?_, by simp [List.append_eq_singleton_iff]⟩
    exact hgrows _ (.one (ha.grows (forall_mem_append.1 hlit).1) (.leaf ht grows_nil))
      (admits_operands [a] fun _ => by cases op <;> rfl)
  | subscript =>
    simp only [matches_level, matches_sign, matches_nil] at h
    obtain ⟨t1, _, ls1, _, rfl, rfl, h1, left, _, _, rfl, rfl, hl, t2, _, ls2, _, rfl, rfl, h2, right, _, _, rfl, rfl, hr,
      rfl, rfl⟩ := h
    simp only [forall_mem_append, forall_mem_cons] at hplain
    obtain ⟨a, ha⟩ := h1 hplain.1
    obtain ⟨i, hi⟩ := h2 hplain.2.2.1
    refine ⟨_, .subscript ha.reads hi.reads, fun hlit => ?_, by simp [List.append_eq_singleton_iff]⟩
    simp only [forall_mem_append, forall_mem_cons] at hlit
    exact hgrows _ (.one (ha.grows hlit.1) (.leaf hl (.one (hi.grows hlit.2.2.1) (.leaf hr grows_nil))))
      (admits_operands [a, i] fun _ => rfl)
  | paren =>
    simp only [matches_level, matches_sign, matches_nil] at h
    obtain ⟨left, _, _, rfl, rfl, hl, t1, _, ls, _, rfl, rfl, h1, right, _, _, rfl, rfl, hr, rfl, rfl⟩ := h
    simp only [forall_mem_append, forall_mem_cons] at hplain
    obtain ⟨a, ha⟩ := h1 hplain.2.1
    refine ⟨a, .paren ha.reads, fun hlit => ?_, by simp⟩
    simp only [forall_mem_append, forall_mem_cons] at hlit
    exact hgrows _ (.leaf hl (.one (ha.grows hlit.2.1) (.leaf hr grows_nil))) (by simp)
  | cast =>
    obtain ⟨child, rfl, hchild⟩ := h.only
    obtain ⟨e, he⟩ := hchild hplain
    exact ⟨e, he.through hinfo .cast h he.reads⟩
  | primary r hr =>
    obtain ⟨child, rfl, hchild⟩ := h.only
    have hmeaning := hchild hplain
    obtain ⟨e, he⟩ : ∃ e, Stands .suffixed child ls e := by
      simp only [List.mem_cons, List.not_mem_nil, or_false] at hr
      obtain rfl | rfl | rfl | rfl | rfl | rfl := hr <;> first | exact hmeaning | exact hmeaning.elim
    exact ⟨e, he.through hinfo (.primary r hr) h he.reads⟩

end

/-! ### The other rules -/

/-- A rule that adds something to the node it stands below, or leaves no trace. -/
def Rule.isThrough : Rule → Bool
  | identifier | specifier | typeWord | constWord | pointerPart | inclusion | parameterDeclarator | parameterShape
  | declaratorShape => true
  | _ => false

def Rule.isShape : Rule → Bool
  | parameterShape | declaratorShape => true
  | _ => false

def Rule.tuning (t : ParseTree) : Rule → Tuning
  | identifier => .named t.text
  | typeWord => .specified fun s => { s with base := BaseType.ofName t.text, typed := true }
  | constWord => .specified fun s => { s with const := true }
  | pointerPart => .pointed (pointerLayer t)
  | parameterShape | declaratorShape => .layered (shapeLayers t.children)
  | _ => .none

theorem enter_through {b : Builder} {o : Open} {rest : List Open} {r : Rule} (hr : r.isThrough = true) (hb : b.opened = o :: rest)
    (hfit : r.isShape = true → o.takesArrays = true) :
    b.enter (Form.ofName r.ruleName) t = .ok (b.mapTop (r.tuning t).map, .nothing) := by
  obtain ⟨next, opened, root⟩ := b
  obtain rfl : opened = o :: rest := hb
  cases r with
  | identifier | typeWord | constWord => rfl
  | specifier | inclusion | parameterDeclarator => exact congrArg (fun b => Except.ok (b, Leave.nothing)) (mapTop_none _).symm
  | pointerPart =>
    cases o with
    | part => rfl
    | node n =>
      obtain ⟨id, kind, origin, cs, found, header⟩ := n
      cases kind <;> rfl
  | parameterShape | declaratorShape =>
    cases o with
    | part => cases hfit rfl
    | node n =>
      obtain ⟨id, kind, origin, cs, found, header⟩ := n
      have hkind : kind.takesArrays = true := hfit rfl
      simp only [enter, Rule.ruleName, Form.ofName, Rule.tuning]
      cases shapeLayers t.children <;> cases kind <;> cases hkind <;> simp [mapTop, Tuning.layered, topKind?, Kind.addLayers?] <;> rfl
  | _ => cases hr

section
variable {g : Tuning} {os : List Outline} {r : Rule} {rounds : List (List ParseTree × List Lexeme)}

theorem grows_passed (fit : Bool) (hr : r.isThrough = true) (hinfo : r.IsOf info) (hfit : r.isShape = true → fit = true)
    (hs : Grows (·.walkAll ts) fit g os) : Grows (·.walk (.node info ts)) fit ((r.tuning (.node info ts)).andThen g) os := by
  refine grows_through (fun b o rest hb ho => ?_) hs
  rw [hinfo.form]
  exact enter_through hr hb fun h => ho (hfit h)

theorem grows_rule (kind : Kind) {kind' : Kind} {origin : Option ParseTree} {fit : Bool} (hinfo : r.IsOf info)
    (henter : OpensNode fit (Form.ofName r.ruleName) (.node info ts) kind origin)
    (hs : Grows (·.walkAll ts) kind.takesArrays g os) (hkind : g.map kind = kind') (hfor : kind.isFor = false)
    (hadmits : kind'.admits (os.map Outline.kind) = true) : Grows (·.walk (.node info ts)) fit .none [.mk kind' os] :=
  grows_made kind (hinfo.form ▸ henter) hs hkind hfor hadmits

theorem meaning_typeWord (hinfo : Rule.typeWord.IsOf info) (hitems : items ∈ Rule.typeWord.alternatives)
    (h : Matches Known items ts ls) : Meaning .typeWord (.node info ts) ls := by
  obtain ⟨w, rfl⟩ : ∃ w : TypeWord, items = [.sign w.text] := by
    simp only [Rule.alternatives, List.map_cons, List.map_nil, List.mem_cons, List.not_mem_nil, or_false] at hitems
    obtain rfl | rfl | rfl | rfl := hitems
    exacts [⟨.char, rfl⟩, ⟨.float, rfl⟩, ⟨.int, rfl⟩, ⟨.void, rfl⟩]
  simp only [matches_sign, matches_nil] at h
  obtain ⟨leaf, _, _, rfl, rfl, hleaf, rfl, rfl⟩ := h
  have htuning : Rule.typeWord.tuning (.node info [leaf]) = Tuning.word w := by
    have htext : (ParseTree.node info [leaf]).text = w.text := hleaf.textAll
    have hbase : BaseType.ofName w.text = w.base := by cases w <;> rfl
    simp only [Rule.tuning, htext, hbase, Tuning.word]
  have hgrows := grows_passed false rfl hinfo (by simp [Rule.isShape]) (.leaf hleaf grows_nil)
  rw [htuning] at hgrows
  exact ⟨w, rfl, hgrows⟩

/-- The words of a cast after a first one: the last one counts. -/
theorem words_of_rounds (h : ∀ x ∈ rounds, Matches Known [.rule .specifier] x.1 x.2)
    (hplain : ∀ l ∈ rounds.flatMap (·.2), l.isPlain = true) (w0 : TypeWord) :
    ∃ (ws : List TypeWord) (w : TypeWord) (f : Tuning),
      .sign w0.text :: rounds.flatMap (·.2) = (ws ++ [w]).map (fun w => Lexeme.sign w.text) ∧
      Grows (·.walkAll (rounds.flatMap (·.1))) false f [] ∧ ∀ layers,
        f.map (.cast { base := w0.base, typed := true } layers) = .cast { base := w.base, typed := true } layers := by
  induction rounds generalizing w0 with
  | nil => exact ⟨[], w0, .none, rfl, grows_nil, fun _ => rfl⟩
  | cons x rounds ih =>
    obtain ⟨us, ls⟩ := x
    obtain ⟨hx, hrounds⟩ := forall_mem_cons.1 h
    simp only [List.flatMap_cons, forall_mem_append] at hplain ⊢
    obtain ⟨u, rfl, hu⟩ := Matches.only hx
    obtain ⟨w1, rfl, hw1⟩ := hu hplain.1
    obtain ⟨ws, w, f, hls, hf, hlast⟩ := ih hrounds hplain.2 w1
    exact ⟨w0 :: ws, w, (Tuning.word w1).andThen f, by simpa using hls, hw1.cons hf, hlast⟩

theorem stars_of_rounds (h : ∀ x ∈ rounds, Matches Known [.rule .pointerPart] x.1 x.2)
    (hplain : ∀ l ∈ rounds.flatMap (·.2), l.isPlain = true) :
    ∃ (stars : Nat) (f : Tuning), rounds.flatMap (·.2) = List.replicate stars (.sign "*") ∧
      Grows (·.walkAll (rounds.flatMap (·.1))) false f [] ∧ ∀ spec layers,
        f.map (.cast spec layers) = .cast spec (layers ++ List.replicate stars ⟨.scalar, false⟩) := by
  induction rounds with
  | nil => exact ⟨0, .none, rfl, grows_nil, fun _ _ => by simp [Tuning.none]⟩
  | cons x rounds ih =>
    obtain ⟨us, ls⟩ := x
    obtain ⟨hx, hrounds⟩ := forall_mem_cons.1 h
    simp only [List.flatMap_cons, forall_mem_append] at hplain ⊢
    obtain ⟨stars, f, hls, hf, hlayers⟩ := ih hrounds hplain.2
    obtain ⟨u, rfl, hu⟩ := Matches.only hx
    obtain ⟨rfl, hstar⟩ := hu hplain.1
    refine ⟨stars + 1, (Tuning.pointed ⟨.scalar, false⟩).andThen f, by simp [hls, List.replicate_succ], hstar.cons hf, fun spec layers => ?_⟩
    exact (hlayers _ _).trans (by simp [List.replicate_succ])

theorem meaning_cast (hinfo : Rule.cast.IsOf info) (hitems : items ∈ Rule.cast.alternatives) (h : Matches Known items ts ls)
    (hplain : ∀ x ∈ ls, x.isPlain = true) : Meaning .cast (.node info ts) ls := by
  obtain rfl := List.mem_singleton.1 hitems
  simp only [matches_level, matches_sign, matches_rule, matches_many, matches_nil] at h
  obtain ⟨left, _, _, rfl, rfl, hl, word, _, wls, _, rfl, rfl, hword, specs, _, _, rfl, rfl, hspecs, points, _, _, rfl, rfl,
    hpoints, right, _, _, rfl, rfl, hr, operand, _, ls, _, rfl, rfl, hop, rfl, rfl⟩ := h
  simp only [append_nil, forall_mem_append, forall_mem_cons] at hplain ⊢
  obtain ⟨-, hpw, hps, hpp, -, hpo⟩ := hplain
  obtain ⟨w0, rfl, hw0⟩ := hword hpw
  obtain ⟨ws, w, f, hwls, hf, hlast⟩ := words_of_rounds (by simpa using hspecs) hps w0
  obtain ⟨stars, f', hsls, hf', hlayers⟩ := stars_of_rounds (by simpa using hpoints) hpp
  obtain ⟨a, ha⟩ := hop hpo
  have hreads := @Reads.cast ws w stars _ _ ha.reads
  rw [← hwls, ← hsls] at hreads
  refine ⟨.cast w stars a, by simpa using hreads, fun hlit => ?_, by simp⟩
  simp only [forall_mem_append, forall_mem_cons] at hlit
  have hrow := Grows.leaf hl (hw0.cons (hf.join (hf'.join (.leaf hr (.one (ha.grows hlit.2.2.2.2.2) grows_nil)))))
  have hkind : f'.map (f.map (.cast { base := w0.base, typed := true } [])) =
      .cast { base := w.base, typed := true } (List.replicate stars ⟨.scalar, false⟩) := by rw [hlast, hlayers, List.nil_append]
  exact grows_rule (.cast {} []) hinfo (fun _ _ _ _ _ => rfl) hrow hkind rfl (by simp [Kind.admits, Kind.fits])

theorem arguments_of_rounds (h : ∀ x ∈ rounds, Matches Known [.sign ",", .level .assignment] x.1 x.2)
    (hplain : ∀ l ∈ rounds.flatMap (·.2), l.isPlain = true) :
    ∃ more : List (List Lexeme × Expr), rounds.flatMap (·.2) = more.flatMap (fun m => .sign "," :: m.1) ∧
      (∀ m ∈ more, Reads .assignment m.1 m.2) ∧ ((∀ x ∈ rounds.flatMap (·.2), x.Converts) →
        Grows (·.walkAll (rounds.flatMap (·.1))) false .none (more.map (·.2.outline))) := by
  induction rounds with
  | nil => exact ⟨[], rfl, by simp, fun _ => grows_nil⟩
  | cons x rounds ih =>
    obtain ⟨us, ls⟩ := x
    obtain ⟨hx, hrounds⟩ := forall_mem_cons.1 h
    simp only [List.flatMap_cons, forall_mem_append] at hplain ⊢
    obtain ⟨more, hls, hmore, hgrows⟩ := ih hrounds hplain.2
    simp only [matches_sign, matches_level, matches_nil] at hx
    obtain ⟨comma, _, _, rfl, rfl, hcomma, u, _, ls, _, rfl, rfl, hu, rfl, rfl⟩ := hx
    simp only [append_nil, forall_mem_cons] at hplain ⊢
    obtain ⟨e, he⟩ := hu hplain.1.2
    refine ⟨(ls, e) :: more, by simp [hls], forall_mem_cons.2 ⟨he.reads, hmore⟩, fun hlit => ?_⟩
    exact .leaf hcomma (.one (he.grows hlit.1.2) (hgrows hlit.2))

theorem meaning_arguments (hinfo : Rule.arguments.IsOf info) (hitems : items ∈ Rule.arguments.alternatives)
    (h : Matches Known items ts ls) (hplain : ∀ x ∈ ls, x.isPlain = true) : Meaning .arguments (.node info ts) ls := by
  have hmade : ∀ es : List Expr, Grows (·.walkAll ts) false .none (es.map Expr.outline) →
      Grows (·.walk (.node info ts)) false .none [.mk .arguments (es.map Expr.outline)] := fun es hs =>
    grows_rule .arguments hinfo (fun _ _ _ _ _ => rfl) hs rfl rfl (by simp [Kind.admits])
  simp only [Rule.alternatives, List.mem_cons, List.not_mem_nil, or_false] at hitems
  obtain rfl | rfl := hitems
  · simp only [matches_level, matches_many, matches_nil] at h
    obtain ⟨t1, _, ls, _, rfl, rfl, h1, rounds, _, _, rfl, rfl, hrounds, rfl, rfl⟩ := h
    simp only [append_nil, forall_mem_append] at hplain hmade ⊢
    obtain ⟨a, ha⟩ := h1 hplain.1
    obtain ⟨more, hls, hmore, hgrows⟩ := arguments_of_rounds (by simpa using hrounds) hplain.2
    refine ⟨a :: more.map (·.2), fun f => ?_, fun hlit => hmade _ ?_⟩
    · rw [hls]
      exact .call ha.reads hmore
    · obtain ⟨hlit, hlits⟩ := forall_mem_append.1 hlit
      simpa [Function.comp_def] using Grows.one (ha.grows hlit) (hgrows hlits)
  · obtain ⟨rfl, rfl⟩ := matches_nil.1 h
    exact ⟨[], fun f => .plainCall, fun _ => hmade [] grows_nil⟩

/-- Every tree of the grammar has its meaning. -/
theorem meaning (h : Derives r t ls) : Known r t ls := by
  refine derives_induct (P := Known) (fun {r info items ts ls} hinfo hitems h hplain => ?_) h
  cases r with
  | level l =>
    obtain ⟨kind, hrow⟩ := row_of_mem hitems
    exact stands_level hinfo hrow h hplain
  | cast => exact meaning_cast hinfo hitems h hplain
  | arguments => exact meaning_arguments hinfo hitems h hplain
  | typeWord => exact meaning_typeWord hinfo hitems h
  | identifier =>
    obtain rfl := List.mem_singleton.1 hitems
    obtain ⟨leaf, l, rfl, rfl, hl, hleaf⟩ := h.leaf
    cases l with
    | identifier x =>
      have hgrows := grows_passed false rfl hinfo (by simp [Rule.isShape]) (.leaf hleaf grows_nil)
      rw [Rule.tuning, show (ParseTree.node info [leaf]).text = x from hleaf.textAll] at hgrows
      exact ⟨x, rfl, hgrows⟩
    | _ => simp at hl
  | specifier =>
    simp only [Rule.alternatives, List.mem_cons, List.not_mem_nil, or_false] at hitems
    obtain rfl | rfl := hitems
    all_goals obtain ⟨word, rfl, hword⟩ := h.only
    · obtain ⟨w, rfl, hw⟩ := hword hplain
      have hall := hw.cons grows_nil
      exact ⟨w, rfl, grows_passed false rfl hinfo (by simp [Rule.isShape]) hall⟩
    · exact (hword hplain).elim
  | pointerPart =>
    simp only [Rule.alternatives, List.mem_cons, List.not_mem_nil, or_false] at hitems
    obtain rfl | rfl := hitems
    · simp only [matches_sign, matches_nil] at h
      obtain ⟨leaf, _, _, rfl, rfl, hleaf, rfl, rfl⟩ := h
      exact ⟨rfl, grows_passed false rfl hinfo (by simp [Rule.isShape]) (.leaf hleaf grows_nil)⟩
    · simp only [matches_sign, matches_rule, matches_nil] at h
      obtain ⟨leaf, _, _, -, rfl, -, word, _, ls, _, -, rfl, hword, -, rfl⟩ := h
      rw [append_nil] at hplain
      exact (hword fun l hl => hplain l (List.mem_cons_of_mem _ hl)).elim
  | name =>
    obtain rfl := List.mem_singleton.1 hitems
    obtain ⟨word, rfl, hword⟩ := h.only
    obtain ⟨x, rfl, hx⟩ := hword hplain
    refine ⟨.name x, .name, fun _ => ?_, by simp⟩
    exact grows_rule (.name _ none none) hinfo (fun _ _ _ _ _ => rfl) (hx.cons grows_nil) rfl rfl rfl
  | call =>
    obtain rfl := List.mem_singleton.1 hitems
    simp only [matches_sign, matches_rule, matches_nil] at h
    obtain ⟨word, _, fls, _, rfl, rfl, hword, left, _, _, rfl, rfl, hl, args, _, als, _, rfl, rfl, hargs, right, _, _, rfl,
      rfl, hr, rfl, rfl⟩ := h
    simp only [forall_mem_append, forall_mem_cons] at hplain
    obtain ⟨f, rfl, hf⟩ := hword hplain.1
    obtain ⟨es, hreads, hgrows⟩ := hargs hplain.2.2.1
    refine ⟨.call f es, hreads f, fun hlit => ?_, by simp⟩
    simp only [forall_mem_append, forall_mem_cons] at hlit
    rw [Expr.outline, outlineAll_eq]
    exact grows_rule (.call none none none) hinfo (fun _ _ _ _ _ => rfl)
      (hf.cons (.leaf hl (.one (hgrows hlit.2.2.1) (.leaf hr grows_nil)))) rfl rfl rfl
  | integer =>
    obtain rfl := List.mem_singleton.1 hitems
    obtain ⟨leaf, l, rfl, rfl, hl, hleaf⟩ := h.leaf
    cases l with
    | integer s =>
      have henter : ∀ b : Builder, b.enter .integer (.node info [leaf]) =
          b.openNode (integerKind (ParseTree.node info [leaf]).text) (some (.node info [leaf])) := fun _ => rfl
      rw [show (ParseTree.node info [leaf]).text = s from hleaf.textAll] at henter
      refine ⟨_, .int, fun hlit => ?_, fun s' fault hls hs b => ?_⟩
      · have hs : IsLiteral s := hlit _ List.mem_cons_self
        rw [hs] at henter
        exact grows_rule (.integer _) hinfo (fun b _ _ _ _ => henter b) (.leaf hleaf grows_nil) rfl rfl rfl
      · obtain rfl : s = s' := by simpa using hls
        rw [walk, show Form.ofRule info.rule = .integer from hinfo.form, henter b, hs]
        obtain ⟨next, _ | ⟨o, rest⟩, root⟩ := b <;> rfl
    | _ => simp at hl
  | float | character | string | constWord =>
    obtain rfl := List.mem_singleton.1 hitems
    obtain ⟨leaf, l, -, rfl, hl, -⟩ := Matches.leaf h
    have hplain := hplain l List.mem_cons_self
    cases l <;> simp_all [Lexeme.isPlain]
  | _ => trivial

theorem exists_stands {l : Level} (h : Derives (.level l) t ls) (hplain : ∀ x ∈ ls, x.isPlain = true) : ∃ e, Stands l t ls e :=
  meaning h hplain

end

end MiniC.Phrase
