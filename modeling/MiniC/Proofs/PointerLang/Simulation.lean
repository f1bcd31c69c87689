import MiniC.Proofs.IntLang.Glue
import MiniC.Proofs.Machine.Stop
import MiniC.Proofs.PointerLang.Code

/-!
# The code of expressions with pointers computes their values

`Leads` is the judgement for a piece of code: where the evaluation gives a value, another instruction is reached
with a stack, and the memory then holds what the store says, up to cell 0; where it divides by zero, the machine runs
into an error. The parts of an expression are put together by `Leads.bind`, as the evaluation puts them together.
-/

namespace MiniC.PointerLang

open Machine
open Function (update update_of_ne)
open IntLang (acts_arithMiddle acts_arithEnd acts_truth acts_logicEnd acts_notEnd acts_neg arithMiddle arithEnd middleStack
  remainderEnd)

/-! ## Memories that hold the variables -/

/-- The variables are where the code looks for them, and apart from the links between frames. -/
structure Placed (T : SymbolTable) (env : Env) (c : Machine.Config) : Prop where
  floor : 0 ≤ c.floor
  cell : ∀ v a, env.cell v = some a → ∃ level frame, T.levelOf v = some level ∧ c.frame? level = some frame ∧
    a = frame + offset T v
  vars : ∀ a t, env.vars a = some t → 0 < a ∧ a ≤ c.floor
  link : ∀ n b, c.base? n c.mp = some b → 0 ≤ b ∧ env.vars (b + 1) = none

/-- The memory holds what the store says, up to cell 0. -/
structure Ready (T : SymbolTable) (env : Env) (σ : Store) (c : Machine.Config) : Prop extends Placed T env c where
  agree : ∀ a, a ≤ c.floor → a ≠ 0 → c.mem a = σ a

section

variable {T : SymbolTable} {env : Env} {σ : Store} {c c' : Machine.Config} {t : Ty} {v : Nat} {a : Int} {w : Word} {ws : List Word}

/-- The frames outwards depend on the links only. -/
theorem base?_congr {n : Nat} {m : Int} (hfloor : c'.floor = c.floor)
    (hmem : ∀ i b, c.base? i m = some b → c'.mem (b + 1) = c.mem (b + 1)) : c'.base? n m = c.base? n m := by
  induction n generalizing m with
  | zero => rfl
  | succ n ih =>
    rw [Machine.Config.base?, Machine.Config.base?, hfloor, hmem 0 m rfl]
    split
    next hle =>
      split
      next b hb =>
        refine ih fun i b' hb' => hmem (i + 1) b' ?_
        rw [Machine.Config.base?, if_pos hle, hb]
        exact hb'
      next => rfl
    next => rfl

theorem Placed.congr (h : Placed T env c) (hfloor : c'.floor = c.floor) (hmp : c'.mp = c.mp)
    (hmem : ∀ a, a ≠ 0 → env.vars a = none → c'.mem a = c.mem a) : Placed T env c' := by
  have hbase : ∀ n, c'.base? n c'.mp = c.base? n c.mp := fun n => by
    rw [hmp]
    refine base?_congr hfloor fun i b hb => ?_
    obtain ⟨hnonneg, hnone⟩ := h.link i b hb
    exact hmem _ (by omega) hnone
  refine ⟨hfloor ▸ h.floor, fun v a ha => ?_, fun a t ha => hfloor ▸ h.vars a t ha, fun n b hb => h.link n b (hbase n ▸ hb)⟩
  obtain ⟨level, frame, hlevel, hframe, heq⟩ := h.cell v a ha
  refine ⟨level, frame, hlevel, ?_, heq⟩
  rw [Machine.Config.frame?, hbase]
  exact hframe

theorem Ready.stack (h : Ready T env σ c) (ws : List Word) : Ready T env σ { c with stack := ws } :=
  ⟨h.toPlaced.congr rfl rfl fun _ _ _ => rfl, h.agree⟩

/-- A word in cell 0, which the store does not see. -/
theorem Ready.store_zero (h : Ready T env σ c) (w : Word) (ws : List Word) :
    Ready T env σ { c with mem := update c.mem 0 w, stack := ws } := by
  refine ⟨h.toPlaced.congr rfl rfl fun a ha _ => update_of_ne ha .., fun a hle ha => ?_⟩
  exact (update_of_ne ha ..).trans (h.agree a hle ha)

/-- A word in the cell of a variable. -/
theorem Ready.store_var (h : Ready T env σ c) (ha : env.vars a = some t) (w : Word) (ws : List Word) :
    Ready T env (update σ a w) { c with mem := update c.mem a w, stack := ws } := by
  refine ⟨h.toPlaced.congr rfl rfl fun b _ hb => update_of_ne ?_ .., fun b hle hb => ?_⟩
  · rintro rfl
    rw [ha] at hb
    cases hb
  · by_cases hba : b = a
    · subst hba
      simp
    · simpa [update_of_ne hba] using h.agree b hle hb

theorem Ready.inMemory (h : Ready T env σ c) (ha : env.vars a = some t) : c.InMemory a :=
  ⟨(h.vars a t ha).1.le, (h.vars a t ha).2⟩

theorem Ready.mem_eq (h : Ready T env σ c) (ha : env.vars a = some t) : c.mem a = σ a :=
  h.agree a (h.vars a t ha).2 (h.vars a t ha).1.ne'

theorem Ready.frame? (h : Ready T env σ c) (hv : env.find? t v = some a) :
    ∃ frame, (T.levelOf v).bind c.frame? = some frame ∧ frame + offset T v = a ∧ env.vars a = some t := by
  obtain ⟨hcell, hvars⟩ := find?_eq_some.1 hv
  obtain ⟨level, frame, hlevel, hframe, rfl⟩ := h.cell v a hcell
  exact ⟨frame, by rw [hlevel, Option.bind_some, hframe], rfl, hvars⟩

end

/-! ## The judgement -/

/-- Where an evaluation gives a value, an instruction is reached with a stack for the value and a memory for the
store; where it divides by zero, an error. -/
def Leads (code : List Line) (T : SymbolTable) (env : Env) (k k' : Nat) (c : Machine.Config) (ws : Int → List Word) :
    Except Stop (Int × Store) → Prop
  | .ok (v, σ) => ∃ mem, Reach code k c k' { c with mem, stack := ws v } ∧ Ready T env σ { c with mem, stack := ws v }
  | .error .zero => Fails code k c
  | .error .undefined => True

section

variable {code : List Line} {T : SymbolTable} {env : Env} {k k1 k2 : Nat} {c : Machine.Config} {ws ws2 : Int → List Word} {ws1 : List Word}
  {m : Except Stop (Int × Store)} {g : Int × Store → Except Stop (Int × Store)} {σ : Store} {v : Int} {is : List Instr}
  {mem : Int → Word}

theorem Leads.cast (h : Leads code T env k k1 c ws m) (he : k1 = k2) : Leads code T env k k2 c ws m := he ▸ h

/-- One evaluation after another. -/
theorem Leads.bind (h : Leads code T env k k1 c ws m)
    (h' : ∀ v σ mem, m = .ok (v, σ) → Ready T env σ { c with mem, stack := ws v } →
      Leads code T env k1 k2 { c with mem, stack := ws v } ws2 (g (v, σ))) : Leads code T env k k2 c ws2 (m >>= g) := by
  match m, h with
  | .error .zero, h => exact h
  | .error .undefined, _ => exact trivial
  | .ok (v, σ), ⟨mem, hreach, hready⟩ =>
    have hrest := h' v σ mem rfl hready
    change Leads code T env k k2 c ws2 (g (v, σ))
    match g (v, σ), hrest with
    | .error .zero, hrest => exact hreach.fails hrest
    | .error .undefined, _ => exact trivial
    | .ok (v', σ'), ⟨mem', hreach', hready'⟩ => exact ⟨mem', hreach.trans hreach', hready'⟩

/-- Code in front that only changes the stack and cell 0. -/
theorem Leads.after (h : Reach code k c k1 { c with mem, stack := ws1 }) (h' : Leads code T env k1 k2 { c with mem, stack := ws1 } ws m) :
    Leads code T env k k2 c ws m := by
  match m, h' with
  | .error .zero, h' => exact h.fails h'
  | .error .undefined, _ => exact trivial
  | .ok (v, σ), ⟨mem', hreach, hready⟩ => exact ⟨mem', h.trans hreach, hready⟩

/-- A look at the variables, which may be undefined. -/
theorem Leads.look {e : Option Int} {g : Int → Except Stop (Int × Store)}
    (h : ∀ a, e = some a → Leads code T env k k1 c ws (g a)) : Leads code T env k k1 c ws (defined e >>= g) := by
  cases e with
  | none => exact trivial
  | some a => exact h a rfl

/-- A jump behind the code. -/
theorem Leads.ujp {ls : List Line} {lab : Label} (h : Leads code T env k k1 c ws m) (hat : At code k1 (.instr (.ujp lab) :: ls))
    (hlab : target code lab = some k2) : Leads code T env k k2 c ws m := by
  match m, h with
  | .error .zero, h => exact h
  | .error .undefined, _ => exact trivial
  | .ok (v, σ), ⟨mem, hreach, hready⟩ => exact ⟨mem, hreach.trans (.ujp hat hlab), hready⟩

theorem reach_code (h : At code k (Emit.code is)) {c1 : Machine.Config} (hacts : c.acts is = some c1) :
    Reach code k c (k + size (Emit.code is)) c1 := by
  simpa [Emit.code] using Reach.acts h hacts

/-- Instructions that leave a value. -/
theorem Leads.value (h : At code k (Emit.code is)) (hacts : c.acts is = some { c with mem, stack := ws v })
    (hr : Ready T env σ { c with mem, stack := ws v }) :
    Leads code T env k (k + size (Emit.code is)) c ws (.ok (v, σ)) := ⟨mem, reach_code h hacts, hr⟩

end

/-! ## Pieces of code -/

section

variable {c : Machine.Config} {t : Ty} {a b v : Int} {ws : List Word}

theorem cell_word (t : Ty) (v : Int) : (t.word v).cell? = some t.cell := by cases t <;> rfl

theorem acts_compare (op : CompareOp) (hs : c.stack = t.word b :: t.word a :: ws) :
    c.acts [.compare op t.cell, .conv .bool .int] = some { c with stack := .int (op.holds a b).toInt :: ws } := by
  cases t <;> simp [hs, Ty.word, Ty.cell]

theorem acts_drop (hs : c.stack = t.word v :: .address 0 :: ws) (h0 : 0 ≤ c.floor) :
    c.acts [.sto t.cell] = some { c with mem := update c.mem 0 (t.word v), stack := ws } := by
  cases t <;> simp [hs, h0, Ty.word, Ty.cell]

theorem acts_assign (hs : c.stack = t.word v :: .address a :: .address a :: ws) (ha : c.InMemory a) :
    c.acts [.sto t.cell, .ind t.cell] =
      some { c with mem := update c.mem a (t.word v), stack := t.word v :: ws } := by
  cases t <;> simp_all [Ty.word, Ty.cell]

theorem acts_shift (up : Bool) (hs : c.stack = .int v :: .int a :: ws) :
    c.acts [.ldc .int (.number intCells), .arith .mul .int, .arith (if up then .add else .sub) .int, .conv .int .address] =
      some { c with stack := .address (if up then a + v * intCells else a - v * intCells) :: ws } := by
  cases up <;> simp [hs]

theorem acts_step (up : Bool) (side : Side) (hs : c.stack = .address a :: ws) (ha : c.InMemory a)
    (hv : c.mem a = t.word v) :
    c.acts ([.dpl .address, .dpl .address, .ind t.cell] ++ stepCode t.cell t.size? up ++ [.sto t.cell, .ind t.cell]
        ++ if side = .after then stepCode t.cell t.size? !up else []) =
      some { c with mem := update c.mem a (t.word (t.bump up v))
                    stack := t.word (if side = .before then t.bump up v else v) :: ws } := by
  have hin : 0 ≤ a ∧ a ≤ c.floor := ha
  cases t <;> cases up <;> cases side <;>
    simp [hs, hin, hv, stepCode, Ty.bump, Ty.unit, Ty.size?, Ty.cell, Ty.word]

end

section

variable {code ls : List Line} {k : Nat} {c : Machine.Config} {a : Int} {ws : List Word} {op : ArithOp}

/-- An operation that has no value runs into an error. -/
theorem fails_arithEnd {b : Int} (h : At code k (Emit.code (arithEnd op))) (hs : c.stack = .int b :: middleStack op a ws)
    (hv : op.value? a b = none) (h0 : 0 ≤ c.floor) : Fails code k c := by
  cases op with
  | div =>
    obtain rfl : b = 0 := by simpa [ArithOp.value?] using hv
    exact fails_div h hs
  | mod =>
    obtain rfl : b = 0 := by simpa [ArithOp.value?] using hv
    -- The divisor goes through cell 0 before the division.
    have hload : c.acts [.sto .int, .ldc .address (.number 0), .ind .int] =
        some { c with mem := update c.mem 0 (.int 0), stack := .int 0 :: .int a :: .int a :: ws } := by
      simp [hs, middleStack, h0]
    have hat : At code k (Emit.code [.sto .int, .ldc .address (.number 0), .ind .int] ++ Emit.code (remainderEnd.drop 3)) := h
    exact (reach_code hat.left hload).fails (fails_div hat.right rfl)
  | _ => simp [ArithOp.value?] at hv

end

/-! ## Expressions -/

/-- The code of an expression leads where its evaluation does. -/
def Sim (code : List Line) (T : SymbolTable) (env : Env) {f : Form} (e : Expr f) : Prop :=
  ∀ n k c σ, At code k (e.code T n) → Ready T env σ c →
    Leads code T env k (k + size (e.code T n)) c (fun v => f.word v :: c.stack) (eval env e σ)

section

variable {code : List Line} {T : SymbolTable} {env : Env} {f : Form} {t u : Ty}

-- The equations of the code are made here, once for all constructs.
attribute [local simp] Expr.code

theorem Sim.int (v : Int) : Sim code T env (.int v) := by
  intro n k c σ hat hr
  exact .value hat (by simp [Form.word, Ty.word]) (hr.stack _)

theorem Sim.load (v : Nat) : Sim code T env (.load t v) := by
  intro n k c σ hat hr
  refine .look fun a ha => .look fun w hw => ?_
  obtain ⟨frame, hframe, rfl, hvars⟩ := hr.frame? ha
  have hmem := (hr.mem_eq hvars).trans (read?_eq_some.1 hw)
  have hin := hr.inMemory hvars
  refine .value hat ?_ (hr.stack _)
  have hcell := cell_word t w
  rw [← hmem] at hcell
  simp_all [Form.word]

/-- The address of a variable is loaded. -/
theorem leads_address {v k : Nat} {c : Machine.Config} {σ : Store} (hat : At code k (Emit.code [.lda (T.levelOf v) (offset T v)]))
    (hr : Ready T env σ c) : Leads code T env k (k + size (Emit.code [.lda (T.levelOf v) (offset T v)])) c
      (fun a => .address a :: c.stack) (do
        let a ← defined (env.find? t v)
        return (a, σ)) := by
  refine .look fun a ha => ?_
  obtain ⟨frame, hframe, rfl, -⟩ := hr.frame? ha
  exact .value hat (by simp [hframe]) (hr.stack _)

theorem Sim.addressOf (v : Nat) : Sim code T env (.addressOf v) := by
  intro n k c σ hat hr
  exact leads_address hat hr

theorem Sim.var (v : Nat) : Sim code T env (.var t v) := by
  intro n k c σ hat hr
  exact leads_address hat hr

variable {e : Expr (.value .pointer)} {p : Expr (.place t)}

theorem Sim.deref (he : Sim code T env e) : Sim code T env (.deref e) := by
  intro n k c σ hat hr
  refine (he n k c σ hat hr).bind fun a σ1 mem _ hr1 => .look fun b hb => ?_
  obtain ⟨rfl, -⟩ := follow?_eq_some.1 hb
  exact ⟨mem, .refl _ _ _, hr1⟩

theorem Sim.fetch (he : Sim code T env e) : Sim code T env (.fetch e) := by
  intro n k c σ hat hr
  simp only [Expr.code] at hat ⊢
  refine (he n k c σ hat.left hr).bind fun a σ1 mem _ hr1 => .look fun b hb => .look fun v hv => ?_
  obtain ⟨rfl, hvars⟩ := follow?_eq_some.1 hb
  have hmem := (hr1.mem_eq hvars).trans (read?_eq_some.1 hv)
  have hin := hr1.inMemory hvars
  refine (Leads.value hat.right ?_ (hr1.stack _)).cast (by simp [Nat.add_assoc])
  simp_all [Form.word, Ty.word]

variable {a b : Expr (.value .int)} {l r : Expr (.value t)} {d : Expr (.value u)}

theorem Sim.plus (ha : Sim code T env a) : Sim code T env (.plus a) := by
  intro n k c σ hat hr
  exact ha n k c σ hat hr

theorem Sim.minus (ha : Sim code T env a) : Sim code T env (.minus a) := by
  intro n k c σ hat hr
  simp only [Expr.code] at hat ⊢
  refine (ha n k c σ hat.left hr).bind fun v σ1 mem _ hr1 => ?_
  exact (Leads.value hat.right (acts_neg rfl) (hr1.stack _)).cast (by simp [Nat.add_assoc])

theorem Sim.not (ha : Sim code T env a) : Sim code T env (.not a) := by
  intro n k c σ hat hr
  simp only [Expr.code] at hat ⊢
  refine (ha n k c σ hat.left hr).bind fun v σ1 mem _ hr1 => ?_
  exact (Leads.value hat.right (acts_notEnd rfl) (hr1.stack _)).cast (by simp [Nat.add_assoc])

/-- The end of an operation, which uses cell 0 for a remainder. -/
theorem leads_arithEnd {op : ArithOp} {k : Nat} {c : Machine.Config} {σ : Store} {x y : Int} {ws : List Word}
    (hat : At code k (Emit.code (arithEnd op))) (hs : c.stack = .int y :: middleStack op x ws) (hr : Ready T env σ c) :
    Leads code T env k (k + size (Emit.code (arithEnd op))) c (fun v => .int v :: ws) (do
      let v ← arithValue op x y
      return (v, σ)) := by
  unfold arithValue
  cases hv : op.value? x y with
  | none => exact fails_arithEnd hat hs hv hr.floor
  | some v =>
    refine .value hat (acts_arithEnd hs hv hr.floor) ?_
    by_cases hop : op = .mod
    · simpa [hop] using hr.store_zero _ _
    · simpa [hop] using hr.stack _

theorem Sim.arith {op : ArithOp} (ha : Sim code T env a) (hb : Sim code T env b) : Sim code T env (.arith op a b) := by
  intro n k c σ hat hr
  simp only [Expr.code] at hat ⊢
  refine (ha n k c σ hat.left.left.left hr).bind fun x σ1 mem _ hr1 => ?_
  refine .after (reach_code hat.left.left.right (acts_arithMiddle op rfl)) ?_
  refine (hb _ _ _ σ1 (hat.left.right.cast (by simp [Nat.add_assoc])) (hr1.stack _)).bind fun y σ2 mem2 _ hr2 => ?_
  exact (leads_arithEnd (hat.right.cast (by simp [Nat.add_assoc])) rfl hr2).cast (by simp [Nat.add_assoc])

theorem Sim.compare {op : CompareOp} {r' : Expr (.value t)} (hl : Sim code T env l) (hr' : Sim code T env r') :
    Sim code T env (.compare op l r') := by
  intro n k c σ hat hr
  simp only [Expr.code] at hat ⊢
  refine (hl n k c σ hat.left.left hr).bind fun x σ1 mem _ hr1 => ?_
  refine (hr' _ _ _ σ1 hat.left.right hr1).bind fun y σ2 mem2 _ hr2 => ?_
  exact (Leads.value (hat.right.cast (by simp [Nat.add_assoc])) (acts_compare op rfl) (hr2.stack _)).cast
    (by simp [Nat.add_assoc])

theorem Sim.logic {op : LogicOp} (ha : Sim code T env a) (hb : Sim code T env b) : Sim code T env (.logic op a b) := by
  intro n k c σ hat hr
  simp only [Expr.code] at hat ⊢
  refine (ha n k c σ hat.left.left.left hr).bind fun x σ1 mem _ hr1 => ?_
  refine .after (reach_code hat.left.left.right (acts_truth rfl)) ?_
  refine (hb _ _ _ σ1 (hat.left.right.cast (by simp [Nat.add_assoc])) (hr1.stack _)).bind fun y σ2 mem2 _ hr2 => ?_
  exact (Leads.value (hat.right.cast (by simp [Nat.add_assoc])) (acts_logicEnd op rfl) (hr2.stack _)).cast
    (by simp [Nat.add_assoc])

theorem Sim.comma (hl : Sim code T env l) (hd : Sim code T env d) : Sim code T env (.comma l d) := by
  intro n k c σ hat hr
  simp only [Expr.code] at hat ⊢
  have hzero : c.acts [.ldc .address (.number 0)] = some { c with stack := .address 0 :: c.stack } := by simp
  refine .after (reach_code hat.left.left.left hzero) ?_
  refine (hl _ _ _ σ hat.left.left.right (hr.stack _)).bind fun x σ1 mem _ hr1 => ?_
  refine .after (reach_code (hat.left.right.cast (by simp [Nat.add_assoc])) (acts_drop rfl hr1.floor)) ?_
  exact (hd _ _ _ σ1 (hat.right.cast (by simp [Nat.add_assoc])) (hr1.store_zero _ _)).cast (by simp [Nat.add_assoc])

theorem Sim.shift {up : Bool} (he : Sim code T env e) (ha : Sim code T env a) : Sim code T env (.shift up e a) := by
  intro n k c σ hat hr
  simp only [Expr.code] at hat ⊢
  refine (he n k c σ hat.left.left.left hr).bind fun x σ1 mem _ hr1 => ?_
  have hnumber : ({ c with mem, stack := .address x :: c.stack } : Machine.Config).acts [.conv .address .int] =
      some { c with mem, stack := .int x :: c.stack } := by simp
  refine .after (reach_code hat.left.left.right hnumber) ?_
  refine (ha _ _ _ σ1 (hat.left.right.cast (by simp [Nat.add_assoc])) (hr1.stack _)).bind fun y σ2 mem2 _ hr2 => ?_
  exact (Leads.value (hat.right.cast (by simp [Nat.add_assoc])) (acts_shift up rfl) (hr2.stack _)).cast
    (by simp [Nat.add_assoc])

theorem Sim.shifted (ha : Sim code T env a) (he : Sim code T env e) : Sim code T env (.shifted a e) := by
  intro n k c σ hat hr
  simp only [Expr.code] at hat ⊢
  refine (ha n k c σ hat.left.left.left hr).bind fun x σ1 mem _ hr1 => ?_
  have hscaled : ({ c with mem, stack := .int x :: c.stack } : Machine.Config).acts [.ldc .int (.number intCells), .arith .mul .int] =
      some { c with mem, stack := .int (x * intCells) :: c.stack } := by simp
  refine .after (reach_code hat.left.left.right hscaled) ?_
  refine (he _ _ _ σ1 (hat.left.right.cast (by simp [Nat.add_assoc])) (hr1.stack _)).bind fun y σ2 mem2 _ hr2 => ?_
  exact (Leads.value (hat.right.cast (by simp [Nat.add_assoc])) (by simp [Form.word, Ty.word]) (hr2.stack _)).cast
    (by simp [Nat.add_assoc])

/-- A jump on a number, which is false if it is zero. -/
theorem reach_branch {k k1 : Nat} {c : Machine.Config} {x : Int} {ws : List Word} {lab : Label}
    (hat : At code k (Emit.code [.conv .int .bool, .fjp lab])) (hs : c.stack = .int x :: ws) (hlab : target code lab = some k1) :
    Reach code k c (if x = 0 then k1 else k + 2) { c with stack := ws } := by
  have hjump : At code k (Emit.code [.conv .int .bool] ++ Emit.code [.fjp lab]) := hat
  refine (reach_code hjump.left (acts_truth hs)).trans ?_
  by_cases hx : x = 0
  · rw [if_pos hx]
    exact Reach.fjp_false (c := { c with stack := .bool (x != 0) :: ws }) hjump.right hlab (by simp [hx])
  · rw [if_neg hx]
    exact Reach.fjp_true (c := { c with stack := .bool (x != 0) :: ws }) hjump.right (by simp [hx])

theorem Sim.cond (hloads : Loads code) (ha : Sim code T env a) (hl : Sim code T env l) (hr' : Sim code T env r) :
    Sim code T env (.cond a l r) := by
  intro n k c σ hat hr
  simp only [Expr.code] at hat ⊢
  have helse := At.target hloads hat.left.left.right.tail
  have hafter := At.target hloads hat.right
  refine (ha _ k c σ hat.left.left.left.left.left hr).bind fun x σ1 mem _ hr1 => ?_
  refine .after (reach_branch hat.left.left.left.left.right rfl helse) ?_
  dsimp only
  by_cases hx : x = 0
  · rw [if_pos hx, if_pos hx]
    exact (hr' _ _ _ σ1 (hat.left.right.cast (by simp; omega)) (hr1.stack _)).cast (by simp; omega)
  · rw [if_neg hx, if_neg hx]
    have hthen := hl _ (k + size (a.code T (n + 2)) + 2) _ σ1 (hat.left.left.left.right.cast (by simp; omega)) (hr1.stack c.stack)
    exact (hthen.ujp (hat.left.left.right.head.cast (by simp; omega)) hafter).cast (by simp)

theorem Sim.assign (hp : Sim code T env p) (hl : Sim code T env l) : Sim code T env (.assign p l) := by
  intro n k c σ hat hr
  simp only [Expr.code] at hat ⊢
  refine (hp n k c σ hat.left.left.left hr).bind fun x σ1 mem hx hr1 => ?_
  have hvars := vars_of_place p hx
  have htwice : ({ c with mem, stack := .address x :: c.stack } : Machine.Config).acts [.dpl .address] =
      some { c with mem, stack := .address x :: .address x :: c.stack } := by simp
  refine .after (reach_code hat.left.left.right htwice) ?_
  refine (hl _ _ _ σ1 (hat.left.right.cast (by simp [Nat.add_assoc])) (hr1.stack _)).bind fun y σ2 mem2 _ hr2 => ?_
  exact (Leads.value (hat.right.cast (by simp [Nat.add_assoc])) (acts_assign rfl (hr2.inMemory hvars))
    (hr2.store_var hvars _ _)).cast (by simp [Nat.add_assoc])

theorem Sim.step {up : Bool} {side : Side} (hp : Sim code T env p) : Sim code T env (.step up side p) := by
  intro n k c σ hat hr
  simp only [Expr.code] at hat ⊢
  refine (hp n k c σ hat.left hr).bind fun x σ1 mem hx hr1 => .look fun v hv => ?_
  have hvars := vars_of_place p hx
  have hmem := (hr1.mem_eq hvars).trans (read?_eq_some.1 hv)
  exact (Leads.value hat.right (acts_step up side rfl (hr1.inMemory hvars) hmem) (hr1.store_var hvars _ _)).cast
    (by simp [Nat.add_assoc])

/-- By induction on the expression: each construct puts the code of its parts together as the evaluation does. -/
theorem sim_expr (hloads : Loads code) (e : Expr f) : Sim code T env e := by
  induction e with
  | int v => exact .int v
  | load t v => exact .load v
  | var t v => exact .var v
  | addressOf v => exact .addressOf v
  | fetch e ih => exact ih.fetch
  | deref e ih => exact ih.deref
  | plus e ih => exact ih.plus
  | minus e ih => exact ih.minus
  | not e ih => exact ih.not
  | arith op l r ihl ihr => exact ihl.arith ihr
  | compare op l r ihl ihr => exact ihl.compare ihr
  | logic op l r ihl ihr => exact ihl.logic ihr
  | cond c a b ihc iha ihb => exact .cond hloads ihc iha ihb
  | comma a b iha ihb => exact iha.comma ihb
  | shift up p e ihp ihe => exact ihp.shift ihe
  | shifted e p ihe ihp => exact ihe.shifted ihp
  | assign p e ihp ihe => exact ihp.assign ihe
  | step up side p ih => exact ih.step

end

/-! ## States -/

/-- A state with all its cells up to the top as memory. -/
def wholeMemory (s : State) : Machine.Config := ⟨s.sp, s.mp, s.ep, s.store, []⟩

theorem shows_wholeMemory {s : State} (h : 0 ≤ s.sp) : (wholeMemory s).Shows s :=
  ⟨by simpa [wholeMemory] using by omega, rfl, rfl, by simp [wholeMemory], fun _ _ => rfl, by simp [wholeMemory]⟩

/-- Wherever the value of an expression is used, its code pushes the value that the evaluation gives, changes the cells
of the variables as the evaluation does, and no other cell but cell 0. It stops in an error exactly if the evaluation
divides by zero; the halting instruction behind the code tells an error in the code from a later one. -/
theorem code_computes_eval {T : SymbolTable} {n : Node} {t : Ty} {e : Expr (.value t)} (h : Tree T n e) (k : Nat) :
    UsedCode false T n k (e.code T k) (k + e.labels) ∧
    ∀ code j (s : State) env, Loads code → At code j (e.code T k) → s.pc = j → Placed T env (wholeMemory s) →
      (∀ v σ, eval env e s.store = .ok (v, σ) →
        (∀ a, env.vars a = none → σ a = s.store a) ∧
        ∃ s', Steps code s s' ∧ s'.pc = j + size (e.code T k) ∧ s'.mp = s.mp ∧ s'.ep = s.ep ∧ s'.sp = s.sp + 1 ∧
          s'.top = t.word v ∧ ∀ a, a ≤ s.sp → a ≠ 0 → s'.store a = σ a) ∧
      (eval env e s.store = .error .zero → Faults code s) ∧
      (At code j (e.code T k ++ [.instr .hlt]) → eval env e s.store ≠ .error .undefined →
        (Faults code s ↔ eval env e s.store = .error .zero)) := by
  refine ⟨h.usedCode k, fun code j s env hloads hat hpc hplaced => ?_⟩
  have hshows := shows_wholeMemory hplaced.floor
  have hsim := sim_expr hloads e k j (wholeMemory s) s.store hat ⟨hplaced, fun _ _ _ => rfl⟩
  have hvalue : ∀ v σ, eval env e s.store = .ok (v, σ) → ∃ s', Steps code s s' ∧ s'.pc = j + size (e.code T k) ∧
      ∃ mem, ({ wholeMemory s with mem, stack := [t.word v] } : Machine.Config).Shows s' ∧
        ∀ a, a ≤ s.sp → a ≠ 0 → mem a = σ a := by
    intro v σ heval
    rw [heval] at hsim
    obtain ⟨mem, hreach, hready⟩ := hsim
    obtain ⟨s', hsteps, hpc', hshows'⟩ := hreach s hpc hshows
    exact ⟨s', hsteps, hpc', mem, hshows', hready.agree⟩
  have hzero : eval env e s.store = .error .zero → Faults code s := by
    intro heval
    rw [heval] at hsim
    exact hsim s hpc hshows
  refine ⟨fun v σ heval => ⟨spares_eval e s.store v σ heval, ?_⟩, hzero, fun hstop hdefined => ⟨fun hfaults => ?_, hzero⟩⟩
  · obtain ⟨s', hsteps, hpc', mem, hshows', hmem⟩ := hvalue v σ heval
    refine ⟨s', hsteps, hpc', hshows'.mp_eq, hshows'.ep_eq, hshows'.sp_eq, hshows'.top rfl, fun a hle ha => ?_⟩
    exact (hshows'.mem_eq a hle).trans (hmem a hle ha)
  · match heval : eval env e s.store with
    | .error .zero => rfl
    | .error .undefined => exact absurd heval hdefined
    | .ok (v, σ) =>
      obtain ⟨s', hsteps, hpc', -⟩ := hvalue v σ heval
      exact absurd hfaults (not_faults_of_halts (halts_of_steps hsteps (hstop.right.cast hpc'.symm)))

/-- The table of `int x; int *p; int y;`. -/
def sampleTable : SymbolTable where
  scopes := #[{ symbols := #[(some "x", 0), (some "p", 1), (some "y", 2)] }]
  symbols := #[object "x" [] 0, object "p" [⟨.scalar, false⟩] 1, object "y" [] 2]
where
  object (name : String) (layers : List Layer) (address : Int) : Symbol :=
    .object { name := some name, node := 0, position := (0, 0), byDeclarator := true,
              type := .declared .int false layers false, address := some address }

/-- The cells of `x` and `p`, and those of all three variables. -/
def sampleEnv : Env where
  cell v := if v < 2 then some (v + 5) else none
  vars a := if a = 5 ∨ a = 7 then some .int else if a = 6 then some .pointer else none

/-- `x` is 5, and `p` points at `y`. -/
def sampleState : State where
  store a := if a = 5 then .int 5 else if a = 6 then .address 7 else if a = 7 then .int 0 else .empty
  sp := 7

/-- `*p = 17 % x` -/
def sampleExpr : Expr (.value .int) := .assign (.deref (.load .pointer 1)) (.arith .mod (.int 17) (.load .int 0))

/-- The tree of `*p = 17 % x`. -/
def sampleNode : Node :=
  .mk 0 .assign none [.mk 1 .dereference none [name 2 "p" 1], .mk 3 (.arith .mod) none [.mk 4 (.integer 17) none [], name 5 "x" 0]]
where
  name (id : Nat) (x : String) (v : Nat) : Node := .mk id (.name x (some (sampleTable.symbol v).type) (some v)) none []

theorem sampleTable_levelOf : ∀ v < 2, sampleTable.levelOf v = some 0 := by decide +kernel

theorem tree_sample : Tree sampleTable sampleNode sampleExpr := by
  have hx : Ty.int.Fits (sampleTable.symbol 0).type := ⟨rfl, false, rfl⟩
  have hp : Ty.pointer.Fits (sampleTable.symbol 1).type := ⟨rfl, false, false, rfl⟩
  exact .assign (.deref (.load (.mk hp (sampleTable_levelOf 1 (by decide)) rfl)))
    (.arith (.int 17) (.load (.mk hx (sampleTable_levelOf 0 (by decide)) rfl)))

theorem placed_sample : Placed sampleTable sampleEnv (wholeMemory sampleState) where
  floor := by decide
  cell v a h := by
    by_cases hv : v < 2
    · have ha : some ((v : Int) + 5) = some a := by simpa only [sampleEnv, if_pos hv] using h
      obtain rfl := Option.some.inj ha
      have hoffset : ∀ v < 2, offset sampleTable v = v + 5 := by decide +kernel
      exact ⟨0, 0, sampleTable_levelOf v hv, rfl, by rw [hoffset v hv]; omega⟩
    · simp only [sampleEnv, if_neg hv, reduceCtorEq] at h
  vars a t h := by
    have hcell : a = 5 ∨ a = 7 ∨ a = 6 := by
      simp only [sampleEnv] at h
      grind
    rcases hcell with rfl | rfl | rfl <;> decide
  link n b h := by
    cases n with
    | zero =>
      cases h
      decide
    | succ n => cases h

/-- The code of `*p = 17 % x` leaves 2 on the stack and in `y`. -/
theorem code_computes_eval_sample : ∃ s', Steps (sampleExpr.code sampleTable 0) sampleState s' ∧ s'.sp = 8 ∧ s'.top = .int 2 ∧
    s'.store 7 = .int 2 ∧ s'.store 5 = .int 5 := by
  have heval : eval sampleEnv sampleExpr sampleState.store = .ok (2, Function.update sampleState.store 7 (.int 2)) := rfl
  obtain ⟨-, hruns⟩ := code_computes_eval tree_sample 0
  obtain ⟨hvalue, -⟩ := hruns (sampleExpr.code sampleTable 0) 0 sampleState sampleEnv (by decide) ⟨[], [], by simp, rfl⟩ rfl
    placed_sample
  obtain ⟨-, s', hsteps, -, -, -, hsp, htop, hmem⟩ := hvalue 2 _ heval
  exact ⟨s', hsteps, hsp, htop, hmem 7 (by decide) (by decide), hmem 5 (by decide) (by decide)⟩

end MiniC.PointerLang
