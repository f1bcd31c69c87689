import MiniC.Proofs.IntLang.Frame

/-!
# Pieces of code

What the short pieces of code do that stand around the code of the parts of an expression. `Computes` is the
judgement for a part: from a description it is reached another with a stack, in which the variables hold what
they should and no kept cell has changed.
-/

namespace MiniC.IntLang

open Machine

/-- From an instruction another is reached with a stack, and the variables then hold what a memory says. -/
def Computes (code : List Line) (L : Layout) (k k' : Nat) (c : Machine.Config) (m : Mem) (ws : List Word) : Prop :=
  ∃ mem, Reach code k c k' { c with mem, stack := ws } ∧ Holds L c.mp m mem ∧ Keeps L c.mp c.mem mem

section

variable {code ls : List Line} {L : Layout} {inside : Bool} {k k1 k2 : Nat} {c : Machine.Config} {m m1 m2 : Mem}
  {ws ws1 ws2 : List Word} {w : Var} {is : List Instr} {mem : Int → Word} {l : Label}

theorem Computes.refl (hm : Holds L c.mp m c.mem) : Computes code L k k c m c.stack :=
  ⟨c.mem, .refl _ _ _, hm, .refl _ _ _⟩

theorem Computes.trans (h : Computes code L k k1 c m1 ws1) (hf : InFrame L inside c)
    (h' : ∀ mem, InFrame L inside { c with mem, stack := ws1 } → Holds L c.mp m1 mem →
      Computes code L k1 k2 { c with mem, stack := ws1 } m2 ws2) : Computes code L k k2 c m2 ws2 := by
  obtain ⟨mem1, hreach, hm1, hkeep⟩ := h
  obtain ⟨mem2, hreach', hm2, hkeep'⟩ := h' mem1 (hf.congr hkeep ws1) hm1
  exact ⟨mem2, hreach.trans hreach', hm2, hkeep.trans hkeep'⟩

/-- Instructions that do not jump. -/
theorem Computes.acts (h : At code k (Emit.code is)) (hacts : c.acts is = some { c with mem, stack := ws })
    (hm : Holds L c.mp m mem) (hk : Keeps L c.mp c.mem mem) :
    Computes code L k (k + size (Emit.code is)) c m ws :=
  ⟨mem, by simpa [Emit.code] using Reach.acts h hacts, hm, hk⟩

/-- Instructions that only change the stack. -/
theorem Computes.stack (h : At code k (Emit.code is)) (hacts : c.acts is = some { c with stack := ws })
    (hm : Holds L c.mp m c.mem) : Computes code L k (k + size (Emit.code is)) c m ws :=
  .acts h hacts hm (.refl _ _ _)

theorem Computes.ujp (h : At code k (.instr (.ujp l) :: ls)) (hl : target code l = some k1)
    (hm : Holds L c.mp m c.mem) : Computes code L k k1 c m c.stack :=
  ⟨c.mem, .ujp h hl, hm, .refl _ _ _⟩

end

/-! ## Operations -/

/-- The stack between the operands of an operation. -/
def middleStack (op : ArithOp) (a : Int) (ws : List Word) : List Word :=
  if op = .mod then .address 0 :: .int a :: .int a :: ws else .int a :: ws

section

variable {c : Machine.Config} {a b v : Int} {t : Bool} {ws : List Word}

theorem acts_arithMiddle (op : ArithOp) (hs : c.stack = .int a :: ws) :
    c.acts (arithMiddle op) = some { c with stack := middleStack op a ws } := by
  cases op <;> simp [arithMiddle, middleStack, hs] <;> simp [← hs]

theorem acts_remainderEnd (hs : c.stack = .int b :: .address 0 :: .int a :: .int a :: ws) (hb : b ≠ 0)
    (h0 : 0 ≤ c.floor) :
    c.acts remainderEnd =
      some { c with mem := Function.update c.mem 0 (.int b), stack := .int (a.tmod b) :: ws } := by
  simp [remainderEnd, hs, h0, hb, Int.tmod_def, Int.mul_comm]

theorem acts_arithEnd {op : ArithOp} (hs : c.stack = .int b :: middleStack op a ws)
    (hv : op.value? a b = some v) (h0 : 0 ≤ c.floor) :
    c.acts (arithEnd op) = some { c with
      mem := if op = .mod then Function.update c.mem 0 (.int b) else c.mem, stack := .int v :: ws } := by
  cases op with
  | mod =>
    simp only [ArithOp.value?, Option.ite_none_left_eq_some] at hv
    obtain ⟨hb, hv⟩ := hv
    obtain rfl := Option.some.inj hv
    simpa [arithEnd] using acts_remainderEnd (by simpa [middleStack] using hs) hb h0
  | div =>
    simp only [ArithOp.value?, Option.ite_none_left_eq_some] at hv
    obtain ⟨hb, hv⟩ := hv
    obtain rfl := Option.some.inj hv
    simp [arithEnd, hs, middleStack, hb]
  | _ =>
    obtain rfl := Option.some.inj hv
    simp [arithEnd, hs, middleStack]

theorem acts_compareEnd (op : CompareOp) (hs : c.stack = .int b :: .int a :: ws) :
    c.acts [.compare op .int, .conv .bool .int] =
      some { c with stack := .int (op.holds a b).toInt :: ws } := by
  simp [hs]

theorem acts_truth (hs : c.stack = .int a :: ws) :
    c.acts [.conv .int .bool] = some { c with stack := .bool (a != 0) :: ws } := by
  simp [hs]

theorem acts_logicEnd (op : LogicOp) (hs : c.stack = .int b :: .bool t :: ws) :
    c.acts [.conv .int .bool, .logic op, .conv .bool .int] =
      some { c with stack := .int (op.holds t (b != 0)).toInt :: ws } := by
  simp [hs]

theorem acts_notEnd (hs : c.stack = .int a :: ws) :
    c.acts [.conv .int .bool, .not, .conv .bool .int] = some { c with stack := .int (a == 0).toInt :: ws } := by
  simp [hs, bne]

theorem acts_neg (hs : c.stack = .int a :: ws) :
    c.acts [.neg .int] = some { c with stack := .int (-a) :: ws } := by
  simp [hs]

theorem acts_assignEnd (hs : c.stack = .int v :: .address a :: .address a :: ws) (ha : c.InMemory a) :
    c.acts [.sto .int, .ind .int] =
      some { c with mem := Function.update c.mem a (.int v), stack := .int v :: ws } := by
  simp_all

theorem acts_step (up : Bool) (side : Side) (hs : c.stack = .address a :: ws) (ha : c.InMemory a)
    (hv : c.mem a = .int v) :
    c.acts ([.dpl .address, .dpl .address, .ind .int, stepInstr up, .sto .int, .ind .int]
        ++ if side = .after then [stepInstr !up] else []) =
      some { c with mem := Function.update c.mem a (.int (bump up v))
                    stack := .int (if side = .before then bump up v else v) :: ws } := by
  have hin : 0 ≤ a ∧ a ≤ c.floor := ha
  cases up <;> cases side <;> simp [hs, hin, hv, stepInstr, bump]

theorem acts_dropEnd (hs : c.stack = .int v :: .address 0 :: ws) (h0 : 0 ≤ c.floor) :
    c.acts [.sto .int] = some { c with mem := Function.update c.mem 0 (.int v), stack := ws } := by
  simp [hs, h0]

end

end MiniC.IntLang
