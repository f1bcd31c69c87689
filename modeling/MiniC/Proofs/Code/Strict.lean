import MiniC.Proofs.Code.Linking
import MiniC.Proofs.IntLang.Glue
import MiniC.Proofs.Machine.Stop
import MiniC.Proofs.Pass.Typed

/-!
# Strict logic operators

The operands of `&&` and `||` are both evaluated: their codes stand one behind the other and nothing between them jumps.
Where the first operand decides the result, the second one cannot change it any more, but what its code does is done.
-/

namespace MiniC

open Machine

/-- The first operand alone decides the result. -/
def LogicOp.decides : LogicOp → Int → Bool
  | conj, v => v == 0
  | disj, v => v != 0

theorem LogicOp.holds_of_decides {op : LogicOp} {v : Int} (h : op.decides v = true) (b : Bool) :
    op.holds (v != 0) b = (v != 0) := by
  cases op with
  | conj =>
    obtain rfl : v = 0 := by simpa [decides] using h
    rfl
  | disj =>
    have hv : (v != 0) = true := h
    simp [holds, hv]

/-! ## Lines of a node -/

/-- While the code of a program is made, a node adds the lines `ls` to those before. -/
def Node.Adds (code : List Line) (address : Bool) (n : Node) (before ls : List Line) : Prop :=
  ∃ (setting : Setting) (t t' : EmitState), setting.address = address ∧ Runs ((Emit.coder n).run setting) t () t' ∧
    t.code.toList = before ∧ t'.code.toList = before ++ ls ∧ before ++ ls <+: code

namespace Emit

variable {n l r : Node} {setting : Setting} {t t' : EmitState} {op : LogicOp} {make : EmitM Unit}

/-- The code of an expression comes behind what is there. -/
theorem grows_coder (hf : n.formed = true) (hn : n.kind.isExpression = true) (setting : Setting) :
    Writes (fun _ _ _ => True) ((coder n).run setting) := by
  have heach : n.Each fun k => Kind.callsIn (fun _ => True) k ∧ k.isDefinition = false := by
    have hinner := Node.each_inner n hf (Kind.isInner_of_isInert (Kind.isInert_of_isExpression hn))
    exact hinner.mono fun k hk => ⟨Kind.callsIn_true k, hk⟩
  have hwithin : setting.Within (setting.again.toList ++ setting.after.toList) :=
    ⟨fun l hl => by simp [hl], fun l hl => by simp [hl]⟩
  exact (makes_run (sound_coder n heach) hwithin (List.mem_singleton_self _)).mono fun _ _ _ _ => trivial

/-- Where the value of an expression is not used, something stands before and behind its lines. -/
theorem runs_dropping (h : Runs (dropping n setting make) t () t') :
    ∃ t1 t2 front back, t1.code.toList = t.code.toList ++ front ∧ Runs make t1 () t2 ∧
      t'.code.toList = t2.code.toList ++ back := by
  obtain ⟨dropped, hdropped, h⟩ := runs_emit_lift_bind.1 h
  obtain ⟨t1, front, hfront, h⟩ : ∃ t1 front, t1.code.toList = t.code.toList ++ front ∧ Runs (do
      make
      if ← lift (isDropped n setting.above) then
        let cell ← lift (n.exprType >>= cellOf)
        instr (.sto cell)) t1 () t' := by
    split at h
    · obtain ⟨_, t1, hline, h⟩ := runs_bind.1 h
      obtain rfl := runs_modify.1 hline
      exact ⟨_, _, Array.toList_push, h⟩
    · exact ⟨t, [], by simp, h⟩
  obtain ⟨_, t2, hmake, h⟩ := runs_bind.1 h
  obtain ⟨dropped, -, h⟩ := runs_emit_lift_bind.1 h
  split at h
  · obtain ⟨cell, -, h⟩ := runs_emit_lift_bind.1 h
    obtain rfl := runs_modify.1 h
    exact ⟨t1, t2, front, _, hfront, hmake, Array.toList_push⟩
  · obtain ⟨-, rfl⟩ := runs_pure.1 h
    exact ⟨t1, _, front, [], hfront, hmake, by simp⟩

end Emit

/-! ## Both operands -/

/-- The code of both operands, and what makes one value of theirs. -/
def strictCode (op : LogicOp) (left right : List Line) : List Line :=
  left ++ Emit.code [.conv .int .bool] ++ right ++ Emit.code [.conv .int .bool, .logic op, .conv .bool .int]

/-- The codes of two operands stand in a program, and the second is run whatever the value of the first is. -/
structure Strict (code : List Line) (op : LogicOp) (k : Nat) (left right : List Line) : Prop where
  lines : At code k (strictCode op left right)
  goesOn : ∀ (c : Machine.Config) (v : Int) ws, c.stack = .int v :: ws →
    Reach code (k + size left) c (k + size left + 1) { c with stack := .bool (v != 0) :: ws }
  ends : ∀ (c : Machine.Config) (v w : Int) ws, c.stack = .int w :: .bool (v != 0) :: ws →
    Reach code (k + size left + 1 + size right) c (k + size (strictCode op left right))
      { c with stack := .int (op.holds (v != 0) (w != 0)).toInt :: ws }
  decided : ∀ (c : Machine.Config) (v w : Int) ws, op.decides v = true → c.stack = .int w :: .bool (v != 0) :: ws →
    Reach code (k + size left + 1 + size right) c (k + size (strictCode op left right))
      { c with stack := .int (v != 0).toInt :: ws }

section

variable {code left right : List Line} {op : LogicOp} {k : Nat}

theorem reach_logicEnd {c : Machine.Config} {b : Bool} {w : Int} {ws : List Word} (h : At code k (strictCode op left right))
    (hs : c.stack = .int w :: .bool b :: ws) : Reach code (k + size left + 1 + size right) c
      (k + size (strictCode op left right)) { c with stack := .int (op.holds b (w != 0)).toInt :: ws } := by
  have hat : At code (k + size left + 1 + size right) ([.conv .int .bool, .logic op, .conv .bool .int].map .instr) :=
    h.right.cast (by simp [Emit.code]; omega)
  have hsize : k + size (strictCode op left right) = k + size left + 1 + size right + 3 := by
    simp [strictCode, Emit.code]
    omega
  rw [hsize]
  exact Reach.acts hat (IntLang.acts_logicEnd op hs)

theorem strict_of_at (h : At code k (strictCode op left right)) : Strict code op k left right where
  lines := h
  goesOn _ _ _ hs := Reach.acts h.left.left.right (IntLang.acts_truth hs)
  ends _ _ _ _ hs := reach_logicEnd h hs
  decided _ _ w _ hv hs := LogicOp.holds_of_decides hv (w != 0) ▸ reach_logicEnd h hs

end

namespace Emit

variable {l r : Node} {setting : Setting} {t t' : EmitState} {op : LogicOp}

/-- What is added in a run, if it is known what is added. -/
theorem runs_code {m : EmitM Unit} {u : Unit} {ls : List Line} {T : SymbolTable} {k : Nat}
    (h : Emits m t.table t.labels ls T k) (hr : Runs m t u t') : t'.code.toList = t.code.toList ++ ls := by
  obtain ⟨-, rfl⟩ := Prod.mk.inj ((h t.code).symm.trans hr)
  simp

theorem runs_logic (hl : Writes (fun _ _ _ => True) ((coder l).run { setting with address := false }))
    (hr : Writes (fun _ _ _ => True) ((coder r).run { setting with address := false }))
    (h : Runs (logic op (coders [l, r]) setting) t () t') :
    ∃ left right, t'.code.toList = t.code.toList ++ strictCode op left right ∧
      ∀ code, t'.code.toList <+: code → l.Adds code false t.code.toList left ∧
        r.Adds code false (t.code.toList ++ left ++ Emit.code [.conv .int .bool]) right := by
  obtain ⟨_, hfirst, h⟩ := runs_emit_lift_bind.1 h
  obtain ⟨_, t1, hleft, h⟩ := runs_bind.1 h
  obtain ⟨_, t2, htruth, h⟩ := runs_bind.1 h
  obtain ⟨_, hsecond, h⟩ := runs_emit_lift_bind.1 h
  obtain ⟨_, t3, hright, hend⟩ := runs_bind.1 h
  obtain rfl := Except.ok.inj hfirst
  obtain rfl := Except.ok.inj hsecond
  obtain ⟨left, hleft1, -⟩ := hl _ _ _ hleft
  obtain ⟨right, hright1, -⟩ := hr _ _ _ hright
  have htruth1 : t2.code.toList = t.code.toList ++ left ++ Emit.code [.conv .int .bool] := by
    rw [runs_code (emits_instr _) htruth, hleft1]
  have hend1 : t'.code.toList = t3.code.toList ++ Emit.code [.conv .int .bool, .logic op, .conv .bool .int] :=
    runs_code (emits_instrs _) hend
  have hwhole : t'.code.toList = t.code.toList ++ strictCode op left right := by
    simp only [hend1, hright1, htruth1, strictCode, List.append_assoc]
  have hone : t.code.toList ++ left <+: t'.code.toList := by
    rw [hend1, hright1, htruth1]
    exact ((List.prefix_append ..).trans (List.prefix_append ..)).trans (List.prefix_append ..)
  have htwo : t.code.toList ++ left ++ Emit.code [.conv .int .bool] ++ right <+: t'.code.toList := by
    rw [hend1, hright1, htruth1]
    exact List.prefix_append ..
  exact ⟨left, right, hwhole, fun code hcode => ⟨⟨_, t, t1, rfl, hleft, rfl, hleft1, hone.trans hcode⟩,
    ⟨_, t2, t3, rfl, hright, htruth1, by rw [hright1, htruth1], htwo.trans hcode⟩⟩⟩

end Emit

/-- The lines behind others are those of two operands, both of which are evaluated. Where the result is not used, something
stands around them. -/
def BothRun (code : List Line) (op : LogicOp) (l r : Node) (before ls : List Line) : Prop :=
  ∃ front left right back, ls = front ++ strictCode op left right ++ back ∧ l.Adds code false (before ++ front) left ∧
    r.Adds code false (before ++ front ++ left ++ Emit.code [.conv .int .bool]) right ∧
    Strict code op (size (before ++ front)) left right

theorem bothRun_of_adds {code before ls : List Line} {address : Bool} {m l r : Node} {op : LogicOp} (hf : m.formed = true)
    (hkind : m.kind = .logic op) (hchildren : m.children = [l, r]) (h : m.Adds code address before ls) :
    BothRun code op l r before ls := by
  obtain ⟨id, kind, o, cs⟩ := m
  obtain rfl : kind = .logic op := hkind
  obtain rfl : cs = [l, r] := hchildren
  obtain ⟨⟨hl, hr⟩, hfl, hfr⟩ : (l.kind.isExpression = true ∧ r.kind.isExpression = true) ∧ l.formed = true ∧ r.formed = true := by
    simpa [Node.formed, Node.formedAll, Kind.admits, Kind.fits] using hf
  obtain ⟨setting, t, t', -, hruns, rfl, hcode, hprefix⟩ := h
  obtain ⟨t1, t2, front, back, hfront, hlogic, hback⟩ := Emit.runs_dropping hruns
  obtain ⟨left, right, hstrict, hadds⟩ := Emit.runs_logic (Emit.grows_coder hfl hl _) (Emit.grows_coder hfr hr _) hlogic
  have hlines : t.code.toList ++ ls = t.code.toList ++ front ++ strictCode op left right ++ back := by
    rw [← hcode, hback, hstrict, hfront]
  have hpart : t2.code.toList <+: code := by
    refine .trans ?_ hprefix
    rw [hlines, hstrict, hfront]
    exact List.prefix_append ..
  rw [hfront] at hadds
  obtain ⟨hleft, hright⟩ := hadds code hpart
  obtain ⟨rest, hrest⟩ := hprefix
  refine ⟨front, left, right, back, ?_, hleft, hright, strict_of_at ⟨_, back ++ rest, ?_, rfl⟩⟩
  · simpa using hlines
  · rw [← hrest, hlines]
    simp

/-- The operands of every logic operator of a program are integers, and both are evaluated wherever its code is. -/
def StrictLogic (n n' : Node) (code : List Line) : Prop :=
  ∀ m ∈ n.parts, ∀ op, m.kind = .logic op → ∃ m' ∈ n'.parts, ∃ l r, m'.id = m.id ∧ m'.kind = .logic op ∧
    m'.children = [l, r] ∧ (m'.IntAt 0 ∧ m'.IntAt 1) ∧
    ∀ address before ls, m'.Adds code address before ls → BothRun code op l r before ls

/-- In a program without errors both operands of every `&&` and `||` are evaluated. -/
theorem strictLogic_of_compileNode {n : Node} {c : Compilation} {messages : Array String} (hn : n.IsProgram)
    (h : compileNode n { stage := .done, messages } = .ok c) (he : Diagnostic.errorCount c.found = 0) :
    ∃ n1 n2 n3 n' s1 s2 s' code, Accepted n n1 n2 n3 n' s1 s2 s' ∧ code = (generate n' s'.table).2.1 ∧ c.code = some code ∧
      StrictLogic n n' code := by
  obtain ⟨n1, n2, n3, n', s1, s2, s', haccepted, hcode, -⟩ := accepted_of_compileNode h he
  refine ⟨n1, n2, n3, n', s1, s2, s', _, haccepted, rfl, hcode, fun m hm op hop => ?_⟩
  obtain ⟨m', hm', hid, hbare⟩ := haccepted.exists_part hn hm
  have hkind : m'.kind = .logic op := by
    rw [hop] at hbare
    generalize m'.kind = k at hbare
    cases k <;> first | exact hbare | cases hbare
  have hf : m'.formed = true := Node.formed_of_mem_parts n' (haccepted.formed hn) hm'
  obtain ⟨l, r, hchildren⟩ : ∃ l r, m'.children = [l, r] := by
    obtain ⟨id, kind, o, cs⟩ := m'
    obtain rfl : kind = .logic op := hkind
    match cs with
    | [l, r] => exact ⟨l, r, rfl⟩
    | [] | [_] | _ :: _ :: _ :: _ => simp [Node.formed, Kind.admits, Kind.fits] at hf
  have htyped := haccepted.allTyped hn m' hm'
  rw [Node.Typed, hkind] at htyped
  exact ⟨m', hm', l, r, hid, hkind, hchildren, htyped, fun _ _ _ => bothRun_of_adds hf hkind hchildren⟩

/-- `int main() { int x = 0; 0 && (x = 1); 1 || (x = x + 1); return x; }` -/
def decidedTree : Node :=
  let int : Specifiers := ⟨.int, true, false⟩
  let x (id : Nat) : Node := .mk id (.name "x" none none) none []
  let number (id : Nat) (v : Int) : Node := .mk id (.integer v) none []
  let statement (id : Nat) (n : Node) : Node := .mk id .statement none [n]
  .mk 0 .program none [.mk 1 (.function ⟨.main, int, some "main", []⟩) none [
    .mk 2 .parameters none [],
    .mk 3 .statements none [
      statement 4 (.mk 5 (.variableDeclaration int) none [
        .mk 6 (.declarator ⟨some "x", [], none⟩) none [.mk 7 (.initializerList false) none [number 8 0]]]),
      statement 9 (.mk 10 (.logic .conj) none [number 11 0, .mk 12 .assign none [x 13, number 14 1]]),
      statement 15 (.mk 16 (.logic .disj) none [number 17 1,
        .mk 18 .assign none [x 19, .mk 20 (.arith .add) none [x 21, number 22 1]]]),
      statement 23 (.mk 24 .returnStmt none [x 25])]]]

/-- The result would be 0 if an operand was left out where the first one decides. -/
theorem decided_operands_run : ∃ c code s, compileNode decidedTree { stage := .done } = .ok c ∧
    Diagnostic.errorCount c.found = 0 ∧ c.fault = none ∧ c.code = some code ∧ Halts code {} s ∧ s.top = .int 2 := by
  have hresult : (compileNode decidedTree { stage := .done }).toOption.bind (fun c => c.code.bind fun code =>
      (run? code 60 {}).map fun s => (Diagnostic.errorCount c.found, c.fault, s.top)) = some (0, none, .int 2) := by
    decide +kernel
  obtain ⟨c, hc, hresult⟩ := Option.bind_eq_some_iff.1 hresult
  obtain ⟨code, hcode, hresult⟩ := Option.bind_eq_some_iff.1 hresult
  obtain ⟨s, hrun, heq⟩ := Option.map_eq_some_iff.1 hresult
  simp only [Prod.mk.injEq] at heq
  exact ⟨c, code, s, toOption_eq_some.1 hc, heq.1, heq.2.1, hcode, halts_of_run? hrun, heq.2.2⟩

theorem strictLogic_of_compileNode_decided : decidedTree.IsProgram ∧ ∃ c n1 n2 n3 n' s1 s2 s' code,
    compileNode decidedTree { stage := .done } = .ok c ∧ Diagnostic.errorCount c.found = 0 ∧
      Accepted decidedTree n1 n2 n3 n' s1 s2 s' ∧ code = (generate n' s'.table).2.1 ∧ c.code = some code ∧
      StrictLogic decidedTree n' code := by
  have hresult : (compileNode decidedTree { stage := .done }).toOption.map (Diagnostic.errorCount ·.found) = some 0 := by
    decide +kernel
  have hprogram : decidedTree.IsProgram := ⟨rfl, by decide, by decide⟩
  obtain ⟨c, hc, he⟩ := Option.map_eq_some_iff.1 hresult
  have hc := toOption_eq_some.1 hc
  obtain ⟨n1, n2, n3, n', s1, s2, s', code, h⟩ := strictLogic_of_compileNode hprogram hc he
  exact ⟨hprogram, c, n1, n2, n3, n', s1, s2, s', code, hc, he, h⟩

end MiniC
