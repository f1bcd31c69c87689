import MiniC.Proofs.IntLang.Generating.Expr

/-!
# Making the code of statements and programs

From a tree whose names were resolved, the code maker gives the code that `Stmt.code` and `programCode` describe,
without a fault: each scope is opened again when its block is reached, and the labels are counted as they are made.
-/

namespace MiniC.IntLang

open Emit

variable {id : Nat} {o : Option ParseTree} {spec : Specifiers} {ok : Place → Kind → Prop} {is cs ts : List Node}
  {c : Option Expr} {p : Program}

open SymbolTable

section

variable {T t t' : SymbolTable} {pl inner : Place} {k v i : Nat} {x : String} {n : Node} {ns ds : List Node}
  {e : Expr} {s : Stmt} {setting : Setting}

/-! ## Scopes -/

theorem Generating.opened {isFunction : Bool} (hT : IntBuilt T) (h : Generating T pl.scope pl.scopes t)
    (ho : Opens T pl isFunction) (name : Option String) :
    ∃ t', Runs (openScope isFunction name) t () t' ∧ Generating T pl.scopes (pl.scopes + 1) t' := by
  obtain ⟨t', hopen, hreplays, hsymbol, -⟩ := h.replays.opened hT.toOrdered ho.lt (by rw [ho.above]; rfl) isFunction name
  refine ⟨t', hopen, hreplays, ?_, fun j hpos hlt e he o hobj => ?_⟩
  · rw [around, ho.above]
    exact List.mem_cons_of_mem _ h.root
  · rw [hsymbol] at hobj
    split at hobj
    next =>
      cases hold : t.symbol e.2 with
      | function f => rw [hold] at hobj; cases hobj
      | object o' => rw [hold] at hobj; cases hobj; rfl
    next hnot =>
      have hne : j ≠ pl.scopes := fun heq => hnot (List.mem_map.2 ⟨e, heq ▸ he, rfl⟩)
      exact h.hidden j hpos (by omega) e he o hobj

theorem Generating.closed {isFunction : Bool} (h : Generating T pl.scopes k t) (ho : Opens T pl isFunction)
    (hroot : 0 ∈ around T pl.scope) (hlt : pl.scope < pl.scopes) :
    ∃ t', Runs closeScope t () t' ∧ Generating T pl.scope k t' := by
  obtain ⟨t', hclose, hreplays, hsymbol⟩ :=
    h.replays.closed (by rw [ho.above]; rfl) (Nat.lt_trans hlt h.replays.scope_lt)
  refine ⟨t', hclose, hreplays, hroot, fun j hpos hlt e he o hobj => ?_⟩
  exact h.hidden j hpos hlt e he o ((hsymbol _).symm.trans hobj)

/-! ## Expressions in their places -/

theorem Exprs.makes (hT : IntBuilt T) (hg : Generating T pl.scope k t) (h : Exprs (Resolved T pl) [n] [e])
    (drop : Bool) (haddr : setting.address = false) (hdrop : isDropped n setting.above = .ok drop) :
    Emits ((coder n).run setting) t i (e.made pl.env i drop) t (i + e.labels) := by
  obtain ⟨h, -⟩ := List.forall₂_cons.1 (makes_exprs hT hg h)
  exact h i setting drop haddr hdrop

theorem Exprs.isInt_one (h : Exprs (Resolved T pl) [n] [e]) : n.IsInt := h.isInt n (List.mem_singleton_self n)

/-! ## Declarations -/

theorem emits_declarator {symbol : Option Nat} {init : Option Expr} (hT : IntBuilt T) (hg : Generating T pl.scope k t)
    (hok : Resolved T pl (.declarator ⟨some x, [], symbol⟩)) (h : Initial (Resolved T (pl.declare x)) ns init)
    (haddr : setting.address = false) (habove : setting.above.head?.map Node.kind = some (.variableDeclaration spec))
    (hspec : spec.base = .int) :
    Emits ((coder (.mk id (.declarator ⟨some x, [], symbol⟩) o ns)).run setting) t i (declCode pl.env x init i) t
      (i + optionLabels init) := by
  obtain ⟨v, rfl, hv⟩ := hok
  obtain ⟨obj, hobj, haddress, -⟩ := (hv x rfl).symbol
  have htype : Node.declaratorType (setting.above.head?.map Node.kind) ⟨some x, [], some v⟩ =
      .ok (.declared .int spec.const [] false) := by
    rw [habove, Node.declaratorType]
    simp [Kind.specifiers?, hspec]
    rfl
  have hint : (CType.declared .int spec.const [] false).IsInt := CType.isInt_declared _ _
  have hstore : ∀ j, Emits (do
      let cell ← lift (cellOf (.declared .int spec.const [] false))
      let offset ← offsetOf (some v)
      instr (.str cell 0 offset)) t j (Emit.code [.str .int 0 (pl.env.next + frameOffset)]) t j := by
    intro j
    refine emits_lift hint.cellOf (emits_offsetOf ?_ (emits_instr _))
    rw [hg.replays.address, hobj]
    exact haddress
  change Emits (declarator _ _ _ _) _ _ _ _ _
  unfold declarator
  refine emits_lift htype (emits_lift hint.isArray ?_)
  cases h with
  | none => exact (emits_lift rfl (emits_lift hint.cellOf ((emits_instr _).seq (hstore i))))
  | @some id' o' n e he =>
    have hlist : ∀ above, Emits ((coder (.mk id' (.initializerList false) o' [n])).run
        { setting with above := above }) t i (e.code (pl.env.declare x) i) t (i + e.labels) := by
      intro above
      have hg' : Generating T (pl.declare x).scope k t := hg
      exact ((he.makes hT hg' false (by exact haddr) (by exact isDropped_used he.isInt_one rfl)).seq emits_pure).cast
        (List.append_nil _) rfl
    have hstring : (CType.declared .int spec.const [] false).agrees .string = .ok false := rfl
    exact emits_lift hstring ((hlist _).seq (hstore _))

theorem emits_decls (hT : IntBuilt T) (hg : Generating T pl.scope k t) (h : Decls (Resolved T) pl ds s)
    (haddr : setting.address = false) (habove : setting.above.head?.map Node.kind = some (.variableDeclaration spec))
    (hspec : spec.base = .int) (again after : Option Label) :
    Emits (runAll setting (coders ds)) t i (s.code pl.env again after i) t (i + s.labels) := by
  induction h generalizing i with
  | nil => exact emits_pure
  | cons hok hinit _ ih =>
    exact ((emits_declarator hT hg hok hinit haddr habove hspec).seq (ih hg)).cast rfl (Nat.add_assoc ..)

theorem Decls.scopes_after (h : Decls ok pl ds s) : (s.after pl).scopes = pl.scopes := by
  induction h with
  | nil => rfl
  | cons _ _ _ ih => exact ih

/-! ## Loops with a header -/

theorem headerCoders_parts {body : Node} (ha : is = [] ∨ ∃ n, is = [n]) (hb : cs = [] ∨ ∃ n, cs = [n])
    (hc : ts = [] ∨ ∃ n, ts = [n]) :
    headerCoders (!is.isEmpty) (!cs.isEmpty) (!ts.isEmpty) (coders (is ++ cs ++ ts ++ [body])) =
      (is.head?.map coder, cs.head?.map coder, ts.head?.map coder, [coder body]) := by
  obtain rfl | ⟨n, rfl⟩ := ha <;> obtain rfl | ⟨n', rfl⟩ := hb <;> obtain rfl | ⟨n'', rfl⟩ := hc <;> rfl

theorem First.length (h : First ok pl is s) : is = [] ∨ ∃ n, is = [n] := by
  cases h with
  | none => exact .inl rfl
  | decls => exact .inr ⟨_, rfl⟩
  | expr => exact .inr ⟨_, rfl⟩

theorem Part.length {ok : Kind → Prop} (h : Part ok ns c) : ns = [] ∨ ∃ n, ns = [n] := by
  cases h with
  | none => exact .inl rfl
  | some => exact .inr ⟨_, rfl⟩

theorem First.scopes_after (h : First ok pl is s) : (s.after pl).scopes = pl.scopes := by
  cases h with
  | none | expr => rfl
  | decls _ hd => exact hd.scopes_after

theorem emits_first (hT : IntBuilt T) (hg : Generating T pl.scope k t) (h : First (Resolved T) pl is s)
    (haddr : setting.address = false) (hdrop : ∀ n ∈ is, n.IsInt → isDropped n setting.above = .ok false) :
    Emits (runOption setting (is.head?.map coder)) t i
      (initializerCode pl.env i (s.code pl.env none none i) s) t (i + s.labels) := by
  cases h with
  | none => exact emits_pure
  | decls hspec hd =>
    have hcode : ∀ own, initializerCode pl.env i own s = own := by
      intro own
      cases hd <;> rfl
    rw [hcode]
    exact emits_decls hT hg hd (by exact haddr) rfl hspec none none
  | expr he => exact he.makes hT hg false haddr (hdrop _ (List.mem_singleton_self _) he.isInt_one)

/-- The condition of a loop, and what follows. -/
theorem emits_condition {rest : EmitM Unit} {ls : List Line} {i' : Nat} (hT : IntBuilt T)
    (hg : Generating T pl.scope k t) (h : Part (Resolved T pl) cs c) (haddr : setting.address = false)
    (hdrop : ∀ n ∈ cs, n.IsInt → isDropped n setting.above = .ok false)
    (hrest : Emits rest t (i + optionLabels c) ls t' i') :
    Emits (match cs.head?.map coder with
      | some c => do
        c.run setting
        let cell ← lift (Emit.cell c)
        instr (.conv cell .bool)
        rest
      | none => do
        instr (.ldc .bool .truth)
        rest) t i (conditionCode pl.env i c ++ ls) t' i' := by
  cases h with
  | none => exact (emits_instr _).seq hrest
  | some he =>
    refine Emits.cast ((he.makes hT hg false haddr (hdrop _ (List.mem_singleton_self _) he.isInt_one)).seq
      (emits_lift he.isInt_one.cell ((emits_instr _).seq hrest))) ?_ rfl
    simp [conditionCode, Expr.made]

theorem emits_iteration {it : Option Expr} (hT : IntBuilt T) (hg : Generating T pl.scope k t)
    (h : Part (Resolved T pl) ts it) (haddr : setting.address = false)
    (hdrop : ∀ n ∈ ts, n.IsInt → isDropped n setting.above = .ok true) :
    Emits (runOption setting (ts.head?.map coder)) t i (iterationCode pl.env i it) t (i + optionLabels it) := by
  cases h with
  | none => exact emits_pure
  | some he => exact he.makes hT hg true haddr (hdrop _ (List.mem_singleton_self _) he.isInt_one)

/-! ## Statements -/

/-- Code is made for statements at a place. -/
structure Around (pl : Place) (setting : Setting) : Prop where
  address : setting.address = false
  loop : pl.loop = true → (∃ l, setting.again = some l) ∧ ∃ l, setting.after = some l

theorem runAll_one (setting : Setting) (c : Coder) : runAll setting [c] = c.run setting := bind_pure_unit

def MakesStmt (T : SymbolTable) (pl : Place) (ns : List Node) (s : Stmt) : Prop :=
  ∀ t, Generating T pl.scope pl.scopes t → ∃ t', Generating T pl.scope (s.after pl).scopes t' ∧
    ∀ i setting above, Around pl setting →
      Emits (runAll { setting with above := above } (coders ns)) t i
        (s.code pl.env setting.again setting.after i) t' (i + s.labels)

theorem MakesStmt.one (h : MakesStmt T pl [n] s) (hg : Generating T pl.scope pl.scopes t) :
    ∃ t', Generating T pl.scope (s.after pl).scopes t' ∧ ∀ i setting above, Around pl setting →
      Emits ((coder n).run { setting with above := above }) t i (s.code pl.env setting.again setting.after i) t'
        (i + s.labels) := by
  obtain ⟨t', hg', hs⟩ := h t hg
  refine ⟨t', hg', fun i setting above ha => ?_⟩
  have := hs i setting above ha
  rwa [coders, coders, runAll_one] at this

theorem makes_inside (h : ∀ t, Generating T pl.scope pl.scopes t →
    ∃ t', Generating T pl.scope (s.after pl).scopes t' ∧ ∀ i setting above, Around pl setting →
      Emits ((coder n).run { setting with above := .mk id .statement o [n] :: above }) t i
        (s.code pl.env setting.again setting.after i) t' (i + s.labels)) :
    MakesStmt T pl [.mk id .statement o [n]] s := by
  intro t hg
  obtain ⟨t', hg', hs⟩ := h t hg
  refine ⟨t', hg', fun i setting above ha => ?_⟩
  rw [coders, coders, runAll_one]
  change Emits (runAll _ [coder n]) t i _ t' _
  rw [runAll_one]
  exact hs i setting above ha

variable {id' id'' : Nat} {o' o'' : Option ParseTree} {c : Expr} {a b : Node} {r : Stmt}

theorem makes_expr (hT : IntBuilt T) (he : Exprs (Resolved T pl) [n] [e]) :
    MakesStmt T pl [.mk id .statement o [n]] (.expr e) := by
  refine makes_inside fun t hg => ⟨t, hg, fun i setting above ha => ?_⟩
  refine he.makes hT hg true ha.address ?_
  rw [isDropped_eq he.isInt_one rfl]
  rfl

theorem makes_decls (hT : IntBuilt T) (hspec : spec.base = .int) (h : Decls (Resolved T) pl ds s) :
    MakesStmt T pl [.mk id .statement o [.mk id' (.variableDeclaration spec) o' ds]] s := by
  refine makes_inside fun t hg => ⟨t, h.scopes_after ▸ hg, fun i setting above ha => ?_⟩
  exact emits_decls hT hg h (by exact ha.address) rfl hspec _ _

theorem makes_block (hT : IntBuilt T) (ho : Opens T pl false) (h : MakesStmt T pl.opened ns s) :
    MakesStmt T pl [.mk id .statement o [.mk id' .statements o' ns]] (.block s) := by
  refine makes_inside fun t hg => ?_
  obtain ⟨t1, hopen, hg1⟩ := hg.opened hT ho none
  obtain ⟨t2, hg2, hbody⟩ := h t1 hg1
  obtain ⟨t3, hclose, hg3⟩ := Generating.closed hg2 ho hg.root hg.replays.scope_lt
  refine ⟨t3, hg3, fun i setting above ha => ?_⟩
  change Emits (statements _ (Node.mk id .statement o _ :: above) _) t i _ t3 _
  have hopens : Fill.opensScope (Node.mk id .statement o [.mk id' .statements o' ns] :: above) = true := rfl
  simp only [statements, hopens, if_true]
  refine Emits.cast ((emits_onTable hopen).seq ((hbody i setting _ ⟨ha.address, ha.loop⟩).seq (emits_onTable hclose))) ?_ rfl
  simp [Stmt.code, Place.opened]

theorem makes_ret (hT : IntBuilt T) (he : Exprs (Resolved T pl) [n] [e]) :
    MakesStmt T pl [.mk id .statement o [.mk id' .returnStmt o' [n]]] (.ret e) := by
  refine makes_inside fun t hg => ⟨t, hg, fun i setting above ha => ?_⟩
  have hvalue : ∀ rest, Emits (runAll { setting with above := .mk id' .returnStmt o' [n] :: rest } [coder n]) t i
      (e.code pl.env i) t (i + e.labels) := by
    intro rest
    rw [runAll_one]
    exact he.makes hT hg false (by exact ha.address) (by exact isDropped_used he.isInt_one rfl)
  exact (hvalue _).seq (emits_lift he.isInt_one.cell (emits_instrs _))

theorem emits_jump {target : Option Label} (h : ∃ l, target = some l) : Emits (jump target) t i (jumpCode target) t i := by
  obtain ⟨l, rfl⟩ := h
  exact emits_instr _

theorem makes_ifThen (hT : IntBuilt T) (hc : Exprs (Resolved T pl) [n] [c]) (h : MakesStmt T pl [a] s) :
    MakesStmt T pl [.mk id .statement o [.mk id' .ifStmt o' [n, a]]] (.ifThen c s) := by
  refine makes_inside fun t hg => ?_
  obtain ⟨t1, hg1, hs⟩ := h.one hg
  refine ⟨t1, hg1, fun i setting above ha => ?_⟩
  have ha' : Around pl { setting with address := false } := ⟨rfl, ha.loop⟩
  change Emits (choice [coder n, coder a] _) t i _ t1 _
  unfold choice
  refine emits_newLabel (emits_newLabel ?_)
  refine Emits.cast (emits_lift rfl
    ((hc.makes hT hg false (by exact rfl) (by exact isDropped_used hc.isInt_one rfl)).seq
    (emits_lift hc.isInt_one.cell ((emits_instrs _).seq
    (emits_lift rfl ((hs _ _ _ ha').seq (emits_place _))))))) ?_ ?_
  · simp [Stmt.code, Emit.code, Expr.made]
  · simp [Stmt.labels, Nat.add_assoc]

theorem makes_ifElse (hT : IntBuilt T) (hc : Exprs (Resolved T pl) [n] [c]) (h : MakesStmt T pl [a] s)
    (h' : MakesStmt T (s.after pl) [b] r) :
    MakesStmt T pl [.mk id .statement o [.mk id' .ifStmt o' [n, a, .mk id'' .elseBranch o'' [b]]]] (.ifElse c s r) := by
  refine makes_inside fun t hg => ?_
  obtain ⟨t1, hg1, hs⟩ := h.one hg
  obtain ⟨t2, hg2, hr⟩ := h'.one (by simpa using hg1)
  refine ⟨t2, by simpa [Stmt.after] using hg2, fun i setting above ha => ?_⟩
  have ha' : Around pl { setting with address := false } := ⟨rfl, ha.loop⟩
  have ha'' : Around (s.after pl) { setting with address := false } := ⟨rfl, by simpa using ha.loop⟩
  change Emits (choice [coder n, coder a, coder (.mk id'' .elseBranch o'' [b])] _) t i _ t2 _
  unfold choice
  refine emits_newLabel (emits_newLabel ?_)
  refine Emits.cast (emits_lift rfl
    ((hc.makes hT hg false (by exact rfl) (by exact isDropped_used hc.isInt_one rfl)).seq
    (emits_lift hc.isInt_one.cell ((emits_instrs _).seq
    (emits_lift rfl ((hs _ _ _ ha').seq ((emits_instr _).seq ((emits_place _).seq
      (((hr _ _ _ ha'').seq emits_pure).seq (emits_place _)))))))))) ?_ ?_
  · simp [Stmt.code, Emit.code, Expr.made]
  · simp [Stmt.labels, Nat.add_assoc]

theorem makes_whileLoop (hT : IntBuilt T) (hc : Exprs (Resolved T pl) [n] [c]) (h : MakesStmt T pl.looped [a] s) :
    MakesStmt T pl [.mk id .statement o [.mk id' .whileLoop o' [n, a]]] (.whileLoop c s) := by
  refine makes_inside fun t hg => ?_
  obtain ⟨t1, hg1, hs⟩ := h.one hg
  refine ⟨t1, hg1, fun i setting above ha => ?_⟩
  have ha' : Around pl.looped { setting with
      again := some (.numbered (i + 1) .whileCondition), after := some (.numbered (i + 2) .whileAfter) } :=
    ⟨ha.address, fun _ => ⟨⟨_, rfl⟩, _, rfl⟩⟩
  change Emits (Emit.whileLoop [coder n, coder a] _) t i _ t1 _
  unfold Emit.whileLoop
  refine emits_newLabel (emits_newLabel ?_)
  refine Emits.cast ((emits_place _).seq (emits_lift rfl
    ((hc.makes hT hg false (by exact ha.address) (by exact isDropped_used hc.isInt_one rfl)).seq
    (emits_lift hc.isInt_one.cell ((emits_instrs _).seq
    (emits_lift rfl ((hs _ _ _ ha').seq ((emits_instr _).seq (emits_place _))))))))) ?_ ?_
  · simp [Stmt.code, Emit.code, Expr.made, Place.looped]
  · simp [Stmt.labels, Nat.add_assoc]

/-- In the header of a loop, only the value of the part that is done after the body is not used. -/
theorem isDropped_header {above : List Node} {body : Node} (his : is = [] ∨ ∃ n, is = [n])
    (hcs : cs = [] ∨ ∃ n, cs = [n]) (hts : ts = [] ∨ ∃ n, ts = [n]) (hn : n.IsInt) :
    isDropped n (.mk id' (.forLoop (!is.isEmpty) (!cs.isEmpty) (!ts.isEmpty)) o' (is ++ cs ++ ts ++ [body]) :: above) =
      .ok (ts.head?.any (·.id == n.id)) := by
  rw [isDropped_eq hn rfl]
  change Except.ok (Option.any _ (Node.header _).iteration) = _
  rw [header_parts his hcs hts]

theorem makes_forLoop {init : Stmt} {c it : Option Expr} (hT : IntBuilt T) (ho : Opens T pl false)
    (hfirst : First (Resolved T) pl.opened is init) (hcond : Part (Resolved T (init.after pl.opened)) cs c)
    (hit : Part (Resolved T (init.after pl.opened)) ts it) (hbody : MakesStmt T (init.after pl.opened).looped [b] s)
    (hids : ∀ t ∈ ts, ∀ n ∈ is ++ cs, n.id ≠ t.id) :
    MakesStmt T pl [.mk id .statement o [.mk id' (.forLoop (!is.isEmpty) (!cs.isEmpty) (!ts.isEmpty)) o'
      (is ++ cs ++ ts ++ [b])]] (.forLoop init c it s) := by
  refine makes_inside fun t hg => ?_
  obtain ⟨t1, hopen, hg1⟩ := hg.opened hT ho none
  have hg1' : Generating T (init.after pl.opened).scope (init.after pl.opened).scopes t1 := by
    rw [Stmt.scope_after, hfirst.scopes_after]
    exact hg1
  obtain ⟨t2, hg2, hs⟩ := hbody.one hg1'
  have hg2' : Generating T (init.after pl.opened).scope (s.after (init.after pl.opened).looped).scopes t2 := hg2
  have hg2'' : Generating T pl.scopes (s.after (init.after pl.opened).looped).scopes t2 := by
    rw [Stmt.scope_after] at hg2'
    exact hg2'
  obtain ⟨t3, hclose, hg3⟩ := Generating.closed hg2'' ho hg.root hg.replays.scope_lt
  refine ⟨t3, hg3, fun i setting above ha => ?_⟩
  have hused : ∀ n ∈ is ++ cs, n.IsInt → ∀ rest, isDropped n (.mk id' (.forLoop (!is.isEmpty) (!cs.isEmpty)
      (!ts.isEmpty)) o' (is ++ cs ++ ts ++ [b]) :: rest) = .ok false := by
    intro n hn hint rest
    rw [isDropped_header hfirst.length hcond.length hit.length hint]
    obtain rfl | ⟨t, rfl⟩ := hit.length
    · rfl
    · simpa using (hids t (by simp) n hn).symm
  have hdropped : ∀ n ∈ ts, n.IsInt → ∀ rest, isDropped n (.mk id' (.forLoop (!is.isEmpty) (!cs.isEmpty)
      (!ts.isEmpty)) o' (is ++ cs ++ ts ++ [b]) :: rest) = .ok true := by
    intro n hn hint rest
    rw [isDropped_header hfirst.length hcond.length hit.length hint]
    obtain rfl | ⟨t, rfl⟩ := hit.length
    · cases hn
    · obtain rfl := List.mem_singleton.1 hn
      simp
  have ha' : Around (init.after pl.opened).looped { setting with
      again := some (.numbered (i + 1) .forIteration), after := some (.numbered (i + 3) .forAfter) } :=
    ⟨ha.address, fun _ => ⟨⟨_, rfl⟩, _, rfl⟩⟩
  change Emits (Emit.forLoop _ _ _ _ _) t i _ t3 _
  unfold Emit.forLoop
  refine emits_newLabel (emits_newLabel (emits_newLabel ?_))
  simp only [headerCoders_parts hfirst.length hcond.length hit.length]
  refine Emits.cast ((emits_onTable hopen).seq ((emits_first hT hg1 hfirst (by exact ha.address)
    (by exact fun n hn hint => hused n (List.mem_append_left _ hn) hint _)).seq ((emits_place _).seq
    (emits_condition hT hg1' hcond (by exact ha.address)
      (by exact fun n hn hint => hused n (List.mem_append_right _ hn) hint _)
    ((emits_instr _).seq (((hs _ _ _ ha').seq emits_pure).seq ((emits_place _).seq
    ((emits_iteration hT hg2' hit (by exact ha.address) (by exact fun n hn hint => hdropped n hn hint _)).seq
    ((emits_instr _).seq ((emits_place _).seq (emits_onTable hclose)))))))))))  ?_ ?_
  · simp [Stmt.code, forCode, Emit.code, Place.opened, Place.looped]
  · simp [Stmt.labels, Nat.add_assoc]

/-- From a tree whose names were resolved, the code of a statement is made. -/
theorem makes_stmts (hT : IntBuilt T) (h : Stmts (Resolved T) pl ns s) : MakesStmt T pl ns s := by
  induction h with
  | nil => exact fun t hg => ⟨t, hg, fun i setting above _ => emits_pure⟩
  | cons _ _ ih ih' =>
    intro t hg
    obtain ⟨t1, hg1, hs⟩ := ih.one hg
    obtain ⟨t2, hg2, hr⟩ := ih' t1 (by simpa using hg1)
    refine ⟨t2, by simpa [Stmt.after] using hg2, fun i setting above ha => ?_⟩
    refine ((hs i setting above ha).seq (hr _ setting above ⟨ha.address, by simpa using ha.loop⟩)).cast ?_ (Nat.add_assoc ..)
    rw [Stmt.env_after]
    rfl
  | empty => exact fun t hg => ⟨t, hg, fun i setting above _ => emits_pure.seq emits_pure⟩
  | expr he => exact makes_expr hT he
  | decls hspec hd => exact makes_decls hT hspec hd
  | block hok _ ih => exact makes_block hT hok ih
  | ifThen hc _ ih => exact makes_ifThen hT hc ih
  | ifElse hc _ _ ih ih' => exact makes_ifElse hT hc ih ih'
  | whileLoop hc _ ih => exact makes_whileLoop hT hc ih
  | forLoop hok hfirst hcond hit _ hids ih => exact makes_forLoop hT hok hfirst hcond hit ih hids
  | ret he => exact makes_ret hT he
  | brk hok => exact makes_inside fun t hg => ⟨t, hg, fun i setting above ha => emits_jump (ha.loop hok).2⟩
  | cont hok => exact makes_inside fun t hg => ⟨t, hg, fun i setting above ha => emits_jump (ha.loop hok).1⟩

/-! ## Functions -/

theorem frameOf_function {f : Nat} (h : (t.scope f).isFunction = true) : t.frameOf f = f := by
  simp [SymbolTable.frameOf, h]

theorem emits_reserve (hc : t.current = some k) : Emits reserve t i
    (Emit.code [.ssp (t.cellsOf k + frameOffset)]) t i := by
  unfold reserve
  refine emits_get fun code => ?_
  simp only [hc]
  exact emits_instr _

theorem Place.scopes_params (pl : Place) (xs : List String) : (pl.params xs).scopes = pl.scopes := by
  induction xs generalizing pl with
  | nil => rfl
  | cons x xs ih => exact ih (pl.declare x)

/-- The code of a function, in whose scope there is room for its variables. -/
theorem makes_function {form : FunctionForm} {f : String} {ps ss : List Node} {xs : List String} (hT : IntBuilt T)
    (hg : Generating T pl.scope pl.scopes t) (hform : form.isDefinition = true) (hspec : spec.base = .int)
    (ho : Opens T pl true) (hsized : (T.scope pl.scopes).cells = (Function.after ⟨f, xs, s⟩ pl).env.next)
    (hss : Stmts (Resolved T) (pl.function.params xs) ss s) :
    ∃ t', Generating T pl.scope (Function.after ⟨f, xs, s⟩ pl).scopes t' ∧ ∀ i above,
      Emits ((coder (.mk id (.function ⟨form, spec, some f, []⟩) o
        [.mk id' .parameters o' ps, .mk id'' .statements o'' ss])).run { above := above }) t i
        (Closure.code ⟨⟨f, xs, s⟩, pl.env.globals⟩ i) t' (i + s.labels) := by
  obtain ⟨t1, hopen, hg1⟩ := hg.opened hT ho (some f)
  obtain ⟨t2, hg2, hbody⟩ := makes_stmts hT hss t1 (by rw [Place.scope_params, Place.scopes_params]; exact hg1)
  rw [Place.scope_params] at hg2
  obtain ⟨t3, hclose, hg3⟩ := Generating.closed hg2 ho hg.root hg.replays.scope_lt
  refine ⟨t3, hg3, fun i above => ?_⟩
  have hcells : t1.cellsOf pl.scopes = (Closure.cells ⟨⟨f, xs, s⟩, pl.env.globals⟩ : Int) := by
    rw [SymbolTable.cellsOf, frameOf_function (by rw [hg1.replays.isFunction]; exact ho.isFunction),
      congrArg Scope.cells (hg1.replays.scope_eq _)]
    simp only [hsized, Function.after, Stmt.env_after, Place.env_params]
    rfl
  have hstatements : ∀ p rest, p.kind.isDefinition = true →
      Emits (runAll { above := p :: rest } [coder (.mk id'' .statements o'' ss)]) t1 i
        (s.code (Env.ofFunction pl.env.globals xs) none none i) t2 (i + s.labels) := by
    intro p rest hp
    have hopens : Fill.opensScope (p :: rest) = false := by simp [Fill.opensScope, hp]
    rw [runAll_one]
    change Emits (statements _ (p :: rest) _) t1 i _ t2 _
    simp only [statements, hopens, Bool.false_eq_true, if_false]
    refine Emits.cast (emits_pure.seq ((hbody i {} _ ⟨rfl, by simp [Place.function]⟩).seq emits_pure)) ?_ rfl
    simp [Place.function, Env.ofFunction]
  have hend : ¬ (spec.base = .void ∧ ([] : List Layer).isEmpty = true) := by simp [hspec]
  rw [run_coder, codeOf]
  simp only [Node.kind, hform, if_true]
  unfold Emit.function
  simp only [hend, if_false]
  refine Emits.cast ((emits_onTable hopen).seq ((emits_line _).seq ((emits_place _).seq
    ((emits_reserve hg1.replays.current).seq ((hstatements _ _ (by exact hform)).seq ((emits_instr _).seq (emits_onTable hclose))))))) ?_ rfl
  simp [Closure.code, hcells]

/-! ## Programs -/

/-- Makes code for each element of a list. -/
def emitAll {α : Type} (f : α → EmitM Unit) : List α → EmitM Unit
  | [] => pure ()
  | a :: as => do
    f a
    emitAll f as

theorem forIn_eq_emitAll {α : Type} (f : α → EmitM Unit) (as : List α) :
    (forIn as PUnit.unit fun a _ => do
      f a
      pure (ForInStep.yield PUnit.unit)) = emitAll f as := by
  induction as with
  | nil => rfl
  | cons a as ih =>
    rw [List.forIn_cons]
    simp only [bind_assoc, pure_bind, ih]
    rfl

theorem program_eq (p : Node) : Emit.program p = (do
    instrs [.ldc .int (.number 0), .ldc .int (.number 0), .ldc .int (.number 0)]
    reserve
    let s ← get
    emitAll (fun x => do
      let address ← offsetOf (some x.2)
      storeLiteral x.1 address) s.table.sortedStrings
    emitAll (fun x => x.1.run { above := x.2 }) (Emit.globals p)
    instrs [.mst 0, .cup 0 (.function "main"), .hlt]
    emitAll (fun f => if f.kind.isDefinition then (coder f).run { above := [p] } else pure ()) p.children) := by
  have hdefinition : ∀ f : Node, (if f.kind.isDefinition then do
        (coder f).run { above := [p] }
        pure (ForInStep.yield PUnit.unit)
      else pure (ForInStep.yield PUnit.unit) : EmitM _) =
        (if f.kind.isDefinition then (coder f).run { above := [p] } else pure ()) >>=
          fun _ => pure (ForInStep.yield PUnit.unit) := by
    intro f
    split <;> simp
  simp only [Emit.program, ← forIn_eq_emitAll, bind_assoc, hdefinition, bind_pure_unit]

theorem emitAll_append {α : Type} (f : α → EmitM Unit) (as bs : List α) :
    emitAll f (as ++ bs) = emitAll f as >>= fun _ => emitAll f bs := by
  induction as with
  | nil => simp [emitAll]
  | cons a as ih => simp [emitAll, ih]

theorem emitAll_coders (ds above : List Node) :
    emitAll (fun x : Coder × List Node => x.1.run { above := x.2 }) (ds.map fun d => (coder d, above)) =
      runAll { above := above } (coders ds) := by
  induction ds with
  | nil => rfl
  | cons d ds ih => simp only [List.map_cons, emitAll, ih, coders, runAll]

/-- A place between the items of a program. -/
structure Top (pl : Place) : Prop where
  scope : pl.scope = 0
  scopes : pl.env.scopes = []
  next : pl.env.next = pl.env.globals.length

theorem Top.declare (h : Top pl) (x : String) : Top (pl.declare x) := by
  obtain ⟨scope, scopes, ⟨bss, globals, next⟩, loop⟩ := pl
  obtain ⟨hscope, hscopes, hnext⟩ := h
  dsimp only at hscopes hnext
  subst hscopes hnext
  exact ⟨hscope, rfl, rfl⟩

theorem Top.returned (h : Top pl) (inner : Place) : Top (pl.returned inner) := ⟨h.scope, h.scopes, h.next⟩

theorem Top.after_decls (htop : Top pl) (h : Decls ok pl ds s) : Top (s.after pl) := by
  induction h with
  | nil => exact htop
  | cons _ _ _ ih => exact ih (htop.declare _)

/-- Among the globals, declarations are items. -/
theorem globalsCode_items (p : Program) (htop : Top pl) (h : Decls ok pl ds s) (i : Nat) :
    globalsCode pl.env.globals (s.items ++ p) i =
      s.code pl.env none none i ++ globalsCode (s.after pl).env.globals p (i + s.labels) := by
  induction h generalizing i with
  | nil => rfl
  | @cons pl id o x v ns init ds s _ _ _ ih =>
    have hrest := ih (htop.declare x) (i + optionLabels init)
    obtain ⟨scope, scopes, ⟨bss, globals, next⟩, loop⟩ := pl
    obtain ⟨-, hscopes, hnext⟩ := htop
    dsimp only at hscopes hnext
    subst hscopes hnext
    have hafter : (Stmt.seq (.decl x init) s).after ⟨scope, scopes, ⟨[], globals, globals.length⟩, loop⟩ =
        s.after (Place.declare ⟨scope, scopes, ⟨[], globals, globals.length⟩, loop⟩ x) := rfl
    have hbind : (Stmt.decl x init).bind ⟨[], globals, globals.length⟩ =
        (Place.declare ⟨scope, scopes, ⟨[], globals, globals.length⟩, loop⟩ x).env := rfl
    have hglobals : (x, globals.length) :: globals =
        (Place.declare ⟨scope, scopes, ⟨[], globals, globals.length⟩, loop⟩ x).env.globals := rfl
    simp only [Stmt.items, List.cons_append, globalsCode, Stmt.code, Stmt.labels, hafter, hbind, List.append_assoc,
      ← Nat.add_assoc, hglobals, hrest]

theorem closures_items_after (p : Program) (htop : Top pl) (h : Decls ok pl ds s) :
    closures pl.env.globals (s.items ++ p) = closures (s.after pl).env.globals p := by
  induction h with
  | nil => rfl
  | @cons pl id o x v ns init ds s _ _ _ ih =>
    have hrest := ih (htop.declare x)
    obtain ⟨scope, scopes, ⟨bss, globals, next⟩, loop⟩ := pl
    obtain ⟨-, hscopes, hnext⟩ := htop
    dsimp only at hscopes hnext
    subst hscopes hnext
    exact hrest

theorem globalsLabels_items (p : Program) (h : Decls ok pl ds s) :
    globalsLabels (s.items ++ p) = s.labels + globalsLabels p := by
  induction h with
  | nil => simp [Stmt.items, Stmt.labels]
  | cons _ _ _ ih => simp [Stmt.items, globalsLabels, Stmt.labels, ih, Nat.add_assoc]

/-- The declarators of globals among some items of a program. -/
def globalsIn (program : Node) (items : List Node) : List (Coder × List Node) :=
  items.flatMap fun declaration =>
    match declaration.kind with
    | .variableDeclaration _ =>
      (declaration.children.filter fun d =>
        match d.kind with
        | .declarator head => head.symbol.isSome
        | _ => false).map fun d => (coder d, [declaration, program])
    | _ => []

theorem Decls.filter_eq (h : Decls (Resolved T) pl ds s) : (ds.filter fun d =>
    match d.kind with
    | .declarator head => head.symbol.isSome
    | _ => false) = ds := by
  induction h with
  | nil => rfl
  | cons hok _ _ ih =>
    obtain ⟨v, rfl, -⟩ := hok
    rw [List.filter_cons_of_pos (by rfl), ih]

/-- The code for the first values of the globals. -/
theorem emits_globals {sized : Place → Nat → Prop} (program : Node) (hT : IntBuilt T) (hg : Generating T 0 k t)
    (htop : Top pl) (h : Items (Resolved T) sized pl ns p) (i : Nat) :
    Emits (emitAll (fun x => x.1.run { above := x.2 }) (globalsIn program ns)) t i (globalsCode pl.env.globals p i) t
      (i + globalsLabels p) := by
  induction h generalizing i with
  | nil => exact emits_pure
  | @vars pl id o spec ds s ns p hspec hds _ ih =>
    have hdecls : Emits (runAll { above := [.mk id (.variableDeclaration spec) o ds, program] } (coders ds)) t i
        (s.code pl.env none none i) t (i + s.labels) :=
      emits_decls hT (htop.scope ▸ hg) hds rfl rfl hspec none none
    have hlist : globalsIn program (.mk id (.variableDeclaration spec) o ds :: ns) =
        (ds.map fun d => (coder d, [.mk id (.variableDeclaration spec) o ds, program])) ++ globalsIn program ns := by
      rw [globalsIn, List.flatMap_cons]
      exact congrArg (List.map _ · ++ _) hds.filter_eq
    rw [hlist, emitAll_append, emitAll_coders, globalsCode_items p htop hds, globalsLabels_items p hds, ← Nat.add_assoc]
    exact hdecls.seq (ih (htop.after_decls hds) _)
  | function _ _ _ _ _ _ _ ih => exact ih (htop.returned _) i

theorem makes_functions (program : Node) (hT : IntBuilt T) (htop : Top pl) (hg : Generating T 0 pl.scopes t)
    (h : Items (Resolved T) (fun pl k => (T.scope pl.scopes).cells = k) pl ns p) (i : Nat) :
    ∃ t' i', Emits (emitAll (fun f => if f.kind.isDefinition then (coder f).run { above := [program] } else pure ())
      ns) t i (functionsCode (closures pl.env.globals p) i) t' i' := by
  induction h generalizing t i with
  | nil => exact ⟨t, i, emits_pure⟩
  | @vars pl id o spec ds s ns p hspec hds _ ih =>
    obtain ⟨t', i', hrest⟩ := ih (htop.after_decls hds) (hds.scopes_after ▸ hg) i
    rw [closures_items_after p htop hds]
    exact ⟨t', i', hrest⟩
  | @function pl id id' id'' o o' o'' form spec f ps xs ss s ns p hform hspec hok hsized _ hss _ ih =>
    obtain ⟨t1, hg1, hcode⟩ : ∃ t1, Generating T pl.scope (Function.after ⟨f, xs, s⟩ pl).scopes t1 ∧ ∀ i above,
        Emits ((coder (.mk id (.function ⟨form, spec, some f, []⟩) o
          [.mk id' .parameters o' ps, .mk id'' .statements o'' ss])).run { above := above }) t i
          (Closure.code ⟨⟨f, xs, s⟩, pl.env.globals⟩ i) t1 (i + s.labels) :=
      makes_function hT (htop.scope.symm ▸ hg) hform hspec hok.1 hsized hss
    obtain ⟨t2, i2, hrest⟩ := ih (htop.returned _) (htop.scope ▸ hg1) (i + s.labels)
    refine ⟨t2, i2, ?_⟩
    have hnode : (Node.mk id (.function ⟨form, spec, some f, []⟩) o
        [.mk id' .parameters o' ps, .mk id'' .statements o'' ss]).kind.isDefinition = true := hform
    simp only [emitAll, hnode, if_true]
    exact (hcode i [program]).seq hrest

theorem top_start : Top .start := ⟨rfl, rfl, rfl⟩

theorem cellsOf_root (hT : IntBuilt T) (h : Replays T 0 k t) : t.cellsOf 0 = (T.scope 0).cells := by
  have habove : (t.scope 0).above = [] := (h.above 0).trans hT.root_above
  have hframe : t.frameOf 0 = 0 := by simp [SymbolTable.frameOf, habove]
  rw [SymbolTable.cellsOf, hframe, congrArg Scope.cells (h.scope_eq 0)]

/-- The code of a program without string literals, from that of its globals and functions. -/
theorem emits_program {p : Node} {ls : List Line} {i' : Nat} (hc : t.current = some 0) (hstrings : t.sortedStrings = [])
    (h : Emits (do
      emitAll (fun x => x.1.run { above := x.2 }) (Emit.globals p)
      instrs mainCode
      emitAll (fun f => if f.kind.isDefinition then (coder f).run { above := [p] } else pure ()) p.children)
      t 0 ls t' i') :
    Emits (Emit.program p) t 0 (Emit.code [.ldc .int (.number 0), .ldc .int (.number 0), .ldc .int (.number 0)]
      ++ (Emit.code [.ssp (t.cellsOf 0 + frameOffset)] ++ ls)) t' i' := by
  rw [program_eq]
  refine (emits_instrs _).seq ((emits_reserve hc).seq (emits_get fun code => ?_))
  simp only [hstrings]
  exact emits_pure.seq h

/-- From a tree whose names were resolved, the code of a program is made. -/
theorem generate_eq (hT : IntBuilt T) (hcells : (T.scope 0).cells = globalsCount p) (hr : Replays T 0 1 t)
    (h : Items (Resolved T) (fun pl k => (T.scope pl.scopes).cells = k) .start ns p) :
    ∃ t', generate (.mk id .program o ns) t = (none, programCode p, t') := by
  have hg : Generating T 0 1 t := ⟨hr, by simp [around], fun i hpos hlt => by omega⟩
  have hstrings : t.sortedStrings = [] := by
    simp [SymbolTable.sortedStrings, hr.strings_eq, hT.strings_eq]
  obtain ⟨t', i', hfunctions⟩ := makes_functions (.mk id .program o ns) hT top_start hg h (globalsLabels p)
  have hglobals := emits_globals (.mk id .program o ns) hT hg top_start h 0
  have hemits := emits_program hr.current hstrings
    (hglobals.seq ((emits_instrs mainCode).seq ((Nat.zero_add (globalsLabels p)).symm ▸ hfunctions)))
  have hcode : Emits (Emit.program (.mk id .program o ns)) t 0 (programCode p) t' i' := by
    refine hemits.cast ?_ rfl
    rw [cellsOf_root hT hr, hcells]
    simp [programCode, startCode, Place.start, Emit.code]
  have hrun := hcode #[]
  unfold Runs outcome at hrun
  exact ⟨t', by simp [generate, hrun]⟩

end

end MiniC.IntLang
