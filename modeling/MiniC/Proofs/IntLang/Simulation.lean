import MiniC.Proofs.IntLang.Glue

/-!
# The code computes what the program means

By induction on the fuel of an evaluation: the code of an expression leaves its value on the stack and the
code of a statement goes where the statement is left to, with the variables in their cells. The stack between
statements is not described: a loop may leave words on it.
-/

namespace MiniC.IntLang

open Machine

/-! ## The judgements -/

/-- Code that holds the functions of a program; a number of its cells are globals. -/
structure Linked (code : List Line) (count : Nat) (fs : List Closure) : Prop where
  loads : Loads code
  placed : ∀ f g, fs.find? (·.function.name == f) = some g → ∃ k n, At code k (g.code n)
  globals : ∀ g ∈ fs, ∀ e ∈ g.globals, e.2 < count

/-- A description that fits the variables at a place. -/
structure Ready (count : Nat) (fs : List Closure) (L : Layout) (env : Env) (m : Mem) (c : Machine.Config) : Prop where
  globals_eq : L.globals = count
  ok : env.Ok L
  callable : env.inside = true ∨ fs = []
  frame : InFrame L env.inside c
  holds : Holds L c.mp m c.mem

/-- With some fuel, the code of an expression leaves its value. -/
def EvalSim (code : List Line) (count : Nat) (fs : List Closure) (fuel : Nat) : Prop :=
  ∀ (env : Env) (e : Expr) (m : Mem) (v : Int) (m' : Mem) (L : Layout) (n k : Nat) (c : Machine.Config),
    eval fs fuel env e m = some (v, m') → At code k (e.code env n) → Ready count fs L env m c →
      Computes code L k (k + size (e.code env n)) c m' (.int v :: c.stack)

/-- With some fuel, the code of arguments leaves their values. -/
def ArgsSim (code : List Line) (count : Nat) (fs : List Closure) (fuel : Nat) : Prop :=
  ∀ (env : Env) (es : List Expr) (m : Mem) (vs : List Int) (m' : Mem) (L : Layout) (n k : Nat) (c : Machine.Config),
    evalArgs fs fuel env es m = some (vs, m') → At code k (codeAll env es n) → Ready count fs L env m c →
      Computes code L k (k + size (codeAll env es n)) c m' ((vs.map .int).reverse ++ c.stack)

/-- With some fuel, a call leaves the result in the place of the frame and the arguments. -/
def CallSim (code : List Line) (count : Nat) (fs : List Closure) (fuel : Nat) : Prop :=
  ∀ (f : String) (vs : List Int) (m : Mem) (v : Int) (m' : Mem) (L : Layout) (inside : Bool) (k : Nat) (c : Machine.Config)
      (ws : List Word),
    call fs fuel f vs m = some (v, m') → At code k (Emit.code [.cup vs.length (.function f)]) →
      L.globals = count → InFrame L inside c → Holds L c.mp m c.mem →
        c.stack = (vs.map .int).reverse ++ frameWords c 0 ++ ws → Computes code L k (k + 1) c m' (.int v :: ws)

section Expr

variable {code : List Line} {count : Nat} {fs : List Closure} {fuel : Nat} {env : Env} {L : Layout} {m m1 m2 : Mem}
  {c : Machine.Config} {k k1 k2 n : Nat} {ws ws1 ws2 : List Word} {x : String} {w : Var} {v : Int}

theorem Ready.zero_le_floor (h : Ready count fs L env m c) : 0 ≤ c.floor := by
  have := h.frame.globals_le
  omega

theorem Computes.andThen (h : Computes code L k k1 c m1 ws1) (hr : Ready count fs L env m c)
    (h' : ∀ mem, Ready count fs L env m1 { c with mem, stack := ws1 } →
      Computes code L k1 k2 { c with mem, stack := ws1 } m2 ws2) : Computes code L k k2 c m2 ws2 :=
  h.trans hr.frame fun mem hf hm => h' mem ⟨hr.globals_eq, hr.ok, hr.callable, hf, hm⟩

theorem Computes.cast (h : Computes code L k k1 c m ws) (he : k1 = k2) : Computes code L k k2 c m ws := he ▸ h

/-- The value of a variable is loaded. -/
theorem Ready.load (hr : Ready count fs L env m c) (hx : env.find? x = some w) (hv : m.get w = some v)
    (h : At code k (access env x fun level offset => .lod .int (some level) offset)) :
    Computes code L k (k + size (access env x fun level offset => .lod .int (some level) offset)) c m
      (.int v :: c.stack) := by
  obtain ⟨b, hb, hcell⟩ := hr.frame.frame? hx
  have hin := hr.frame.inMemory (hr.ok.find? hx)
  have hmem := hr.holds.var w v (hr.ok.find? hx) hv
  simp only [access, hx] at h ⊢
  exact Computes.stack (show At code k (Emit.code [_]) from h) (by simp_all) hr.holds

/-- The address of a variable is loaded. -/
theorem Ready.address (hr : Ready count fs L env m c) (hx : env.find? x = some w)
    (h : At code k (access env x fun level offset => .lda (some level) offset)) :
    Computes code L k (k + size (access env x fun level offset => .lda (some level) offset)) c m
      (.address (w.cell c.mp) :: c.stack) := by
  obtain ⟨b, hb, hcell⟩ := hr.frame.frame? hx
  simp only [access, hx] at h ⊢
  exact Computes.stack (show At code k (Emit.code [_]) from h) (by simp [hb, hcell]) hr.holds

/-- Instructions that leave something in cell 0. -/
theorem Ready.store_zero {is : List Instr} {u : Word} (hr : Ready count fs L env m c) (h : At code k (Emit.code is))
    (hacts : c.acts is = some { c with mem := Function.update c.mem 0 u, stack := ws }) :
    Computes code L k (k + size (Emit.code is)) c m ws :=
  .acts h hacts (hr.holds.update_zero hr.frame _) (.update not_kept_zero _)

/-- Instructions that leave a value in a variable. -/
theorem Ready.store_var {is : List Instr} (hr : Ready count fs L env m c) (hw : w.In L) (h : At code k (Emit.code is))
    (hacts : c.acts is = some { c with mem := Function.update c.mem (w.cell c.mp) (.int v), stack := ws }) :
    Computes code L k (k + size (Emit.code is)) c (m.set w (some v)) ws :=
  .acts h hacts (hr.holds.set hr.frame hw v) (.update (not_kept_cell hw) _)

/-- The end of an operation, which uses cell 0 for a remainder. -/
theorem Ready.arithEnd {op : ArithOp} {a b : Int} (hr : Ready count fs L env m c)
    (h : At code k (Emit.code (arithEnd op))) (hs : c.stack = .int b :: middleStack op a ws)
    (hv : op.value? a b = some v) :
    Computes code L k (k + size (Emit.code (IntLang.arithEnd op))) c m (.int v :: ws) := by
  have hacts := acts_arithEnd hs hv hr.zero_le_floor
  by_cases hop : op = .mod
  · exact hr.store_zero h (by simpa [hop] using hacts)
  · exact .stack h (by simpa [hop] using hacts) hr.holds

variable {l r e a b : Expr} {vl vr : Int} {args : List Expr}

/-- The code of an expression takes one memory to another and leaves a value. -/
def Gives (code : List Line) (count : Nat) (fs : List Closure) (L : Layout) (env : Env) (e : Expr) (m m' : Mem)
    (v : Int) : Prop :=
  ∀ n k c, At code k (e.code env n) → Ready count fs L env m c →
    Computes code L k (k + size (e.code env n)) c m' (.int v :: c.stack)

-- The equations of the code are made here, once for all constructs.
attribute [local simp] Expr.code

theorem Gives.int (v : Int) : Gives code count fs L env (.int v) m m v := by
  intro n k c h hr
  exact .stack h (by simp) hr.holds

theorem Gives.var (hx : env.find? x = some w) (hv : m.get w = some v) : Gives code count fs L env (.var x) m m v := by
  intro n k c h hr
  exact hr.load hx hv h

theorem Gives.plus (he : Gives code count fs L env e m m1 v) : Gives code count fs L env (.plus e) m m1 v := by
  intro n k c h hr
  simp only [Expr.code] at h ⊢
  exact he n k c h hr

theorem Gives.minus (he : Gives code count fs L env e m m1 v) : Gives code count fs L env (.minus e) m m1 (-v) := by
  intro n k c h hr
  simp only [Expr.code] at h ⊢
  refine ((he n k c h.left hr).andThen hr fun _ hr1 => .stack h.right (acts_neg rfl) hr1.holds).cast ?_
  simp [Nat.add_assoc]

theorem Gives.not (he : Gives code count fs L env e m m1 v) :
    Gives code count fs L env (.not e) m m1 (v == 0).toInt := by
  intro n k c h hr
  simp only [Expr.code] at h ⊢
  refine ((he n k c h.left hr).andThen hr fun _ hr1 => .stack h.right (acts_notEnd rfl) hr1.holds).cast ?_
  simp [Nat.add_assoc]

theorem Gives.arith {op : ArithOp} (hl : Gives code count fs L env l m m1 vl)
    (hr' : Gives code count fs L env r m1 m2 vr) (hv : op.value? vl vr = some v) :
    Gives code count fs L env (.arith op l r) m m2 v := by
  intro n k c h hr
  simp only [Expr.code] at h ⊢
  refine ((hl n k c h.left.left.left hr).andThen hr fun _ hr1 => ?_)
  refine (Computes.stack h.left.left.right (acts_arithMiddle op rfl) hr1.holds).andThen hr1 fun _ hr2 => ?_
  refine (hr' _ _ _ (by simpa [Nat.add_assoc] using h.left.right) hr2).andThen hr2 fun _ hr3 => ?_
  exact (hr3.arithEnd (by simpa [Nat.add_assoc] using h.right) rfl hv).cast (by simp [Nat.add_assoc])

theorem Gives.compare {op : CompareOp} (hl : Gives code count fs L env l m m1 vl)
    (hr' : Gives code count fs L env r m1 m2 vr) :
    Gives code count fs L env (.compare op l r) m m2 (op.holds vl vr).toInt := by
  intro n k c h hr
  simp only [Expr.code] at h ⊢
  refine ((hl n k c h.left.left hr).andThen hr fun _ hr1 => ?_)
  refine (hr' _ _ _ h.left.right hr1).andThen hr1 fun _ hr2 => ?_
  exact (Computes.stack (by simpa [Nat.add_assoc] using h.right) (acts_compareEnd op rfl) hr2.holds).cast
    (by simp [Nat.add_assoc])

theorem Gives.logic {op : LogicOp} (hl : Gives code count fs L env l m m1 vl)
    (hr' : Gives code count fs L env r m1 m2 vr) :
    Gives code count fs L env (.logic op l r) m m2 (op.holds (vl != 0) (vr != 0)).toInt := by
  intro n k c h hr
  simp only [Expr.code] at h ⊢
  refine ((hl n k c h.left.left.left hr).andThen hr fun _ hr1 => ?_)
  refine (Computes.stack h.left.left.right (acts_truth rfl) hr1.holds).andThen hr1 fun _ hr2 => ?_
  refine (hr' _ _ _ (by simpa [Nat.add_assoc] using h.left.right) hr2).andThen hr2 fun _ hr3 => ?_
  exact (Computes.stack (by simpa [Nat.add_assoc] using h.right) (acts_logicEnd op rfl) hr3.holds).cast
    (by simp [Nat.add_assoc])

theorem Gives.comma (ha : Gives code count fs L env a m m1 vl) (hb : Gives code count fs L env b m1 m2 vr) :
    Gives code count fs L env (.comma a b) m m2 vr := by
  intro n k c h hr
  simp only [Expr.code] at h ⊢
  have hzero : Computes code L k (k + 1) c m (.address 0 :: c.stack) :=
    Computes.stack h.left.left.left (by simp) hr.holds
  refine hzero.andThen hr fun _ hr1 => ?_
  refine (ha _ _ _ h.left.left.right hr1).andThen hr1 fun _ hr2 => ?_
  refine (hr2.store_zero (by simpa [Nat.add_assoc] using h.left.right)
    (acts_dropEnd rfl hr2.zero_le_floor)).andThen hr2 fun _ hr3 => ?_
  exact (hb _ _ _ (by simpa [Nat.add_assoc] using h.right) hr3).cast (by simp [Nat.add_assoc])

theorem Gives.assign (hx : env.find? x = some w) (he : Gives code count fs L env e m m1 v) :
    Gives code count fs L env (.assign x e) m (m1.set w (some v)) v := by
  intro n k c h hr
  simp only [Expr.code] at h ⊢
  have hw := hr.ok.find? hx
  have hin := hr.frame.inMemory hw
  refine (hr.address hx h.left.left.left).andThen hr fun _ hr1 => ?_
  have htwice : Computes code L _ _ _ m (.address (w.cell c.mp) :: .address (w.cell c.mp) :: c.stack) :=
    Computes.stack h.left.left.right (by simp) hr1.holds
  refine htwice.andThen hr1 fun _ hr2 => ?_
  refine (he _ _ _ (by simpa [Nat.add_assoc] using h.left.right) hr2).andThen hr2 fun _ hr3 => ?_
  exact (hr3.store_var hw (by simpa [Nat.add_assoc] using h.right) (acts_assignEnd rfl hin)).cast
    (by simp [Nat.add_assoc])

theorem Gives.step {up : Bool} {side : Side} (hx : env.find? x = some w) (hv : m.get w = some v) :
    Gives code count fs L env (.step up side x) m (m.set w (some (bump up v)))
      (if side = .before then bump up v else v) := by
  intro n k c h hr
  simp only [Expr.code] at h ⊢
  have hw := hr.ok.find? hx
  refine (hr.address hx h.left).andThen hr fun _ hr1 => ?_
  exact (hr1.store_var hw h.right (acts_step up side rfl (hr1.frame.inMemory hw) (hr1.holds.var w v hw hv))).cast
    (by simp [Nat.add_assoc])

/-- A jump on a truth value. -/
theorem Ready.fjp {t : Bool} {lab : Label} (hr : Ready count fs L env m c) (h : At code k (Emit.code [.fjp lab]))
    (hs : c.stack = .bool t :: ws) (hl : target code lab = some k1) :
    Computes code L k (if t then k + 1 else k1) c m ws := by
  cases t with
  | true => exact ⟨c.mem, .fjp_true h hs, hr.holds, .refl _ _ _⟩
  | false => exact ⟨c.mem, .fjp_false h hl hs, hr.holds, .refl _ _ _⟩

/-- A jump on a number, which is false if it is zero. -/
theorem Ready.branch {lab : Label} (hr : Ready count fs L env m c)
    (h : At code k (Emit.code [.conv .int .bool, .fjp lab])) (hs : c.stack = .int v :: ws)
    (hl : target code lab = some k1) : Computes code L k (if v = 0 then k1 else k + 2) c m ws := by
  have h' : At code k (Emit.code [.conv .int .bool] ++ Emit.code [.fjp lab]) := h
  refine (Computes.stack h'.left (acts_truth hs) hr.holds).andThen hr fun _ hr1 => ?_
  refine (hr1.fjp h'.right rfl hl).cast ?_
  by_cases hv : v = 0 <;> simp [hv, Emit.code]

theorem Gives.cond (hc : Loads code) {t : Expr} (ht : Gives code count fs L env t m m1 vl)
    (ha : vl ≠ 0 → Gives code count fs L env a m1 m2 v) (hb : vl = 0 → Gives code count fs L env b m1 m2 v) :
    Gives code count fs L env (.cond t a b) m m2 v := by
  intro n k c h hr
  simp only [Expr.code] at h ⊢
  have helse := At.target hc h.left.left.right.tail
  have hafter := At.target hc h.right
  refine (ht _ k c h.left.left.left.left.left hr).andThen hr fun _ hr1 => ?_
  refine (hr1.branch h.left.left.left.left.right rfl helse).andThen hr1 fun _ hr2 => ?_
  by_cases hv : vl = 0
  · rw [if_pos hv]
    exact (hb hv _ _ _ (h.left.right.cast (by simp <;> omega)) hr2).cast (by simp <;> omega)
  · rw [if_neg hv]
    refine (ha hv _ _ _ (h.left.left.left.right.cast (by simp <;> omega)) hr2).andThen hr2 fun _ hr3 => ?_
    exact (Computes.ujp (h.left.left.right.head.cast (by simp <;> omega)) hafter hr3.holds).cast
      (by simp)

/-- The arguments of a call, each on top of the ones before. -/
theorem argsSim_succ (heval : EvalSim code count fs fuel) (hargs : ArgsSim code count fs fuel) :
    ArgsSim code count fs (fuel + 1) := by
  intro env es m vs m' L n k c h hat hr
  cases es with
  | nil =>
    simp only [evalArgs, Option.some.injEq, Prod.mk.injEq] at h
    obtain ⟨rfl, rfl⟩ := h
    exact .refl hr.holds
  | cons e es =>
    simp only [evalArgs, bind, Option.bind_eq_some_iff, pure, Option.some.injEq, Prod.exists, Prod.mk.injEq] at h
    obtain ⟨v, m1, he, vs', m2, hes, rfl, rfl⟩ := h
    simp only [codeAll] at hat ⊢
    refine (heval _ _ _ _ _ _ _ _ _ he hat.left hr).andThen hr fun mem hr1 => ?_
    have hrest := hargs _ _ _ _ _ _ _ _ _ hes hat.right hr1
    simpa [Nat.add_assoc] using hrest

/-- A call: the frame, the arguments, and the function. -/
theorem Gives.call {f : String} {vs : List Int} (hargs : ArgsSim code count fs fuel) (hcall : CallSim code count fs fuel)
    (hin : env.inside = true) (he : evalArgs fs fuel env args m = some (vs, m1))
    (hf : IntLang.call fs fuel f vs m1 = some (v, m2)) : Gives code count fs L env (.call f args) m m2 v := by
  intro n k c h hr
  simp only [Expr.code] at h ⊢
  have hlink : c.frame? 1 = some 0 := by
    have hle := hr.frame.frame_le
    have hfloor : c.mp + 1 ≤ c.floor := by omega
    simp [Machine.Config.frame?, Machine.Config.base?, hr.frame.link hin, hfloor]
  have hmst : Computes code L k (k + 1) c m (frameWords c 0 ++ c.stack) :=
    ⟨c.mem, .mst h.left.left hlink, hr.holds, .refl _ _ _⟩
  refine hmst.andThen hr fun _ hr1 => ?_
  refine (hargs _ _ _ _ _ _ _ _ _ he h.left.right hr1).andThen hr1 fun _ hr2 => ?_
  have hlen := evalArgs_length he
  refine (hcall _ _ _ _ _ _ _ _ _ _ hf (by rw [hlen]; exact h.right.cast (by simp <;> omega)) hr.globals_eq hr2.frame
    hr2.holds (by simp [frameWords])).cast (by simp <;> omega)

/-- One more unit of fuel for expressions. -/
theorem evalSim_succ (hc : Linked code count fs) (heval : EvalSim code count fs fuel)
    (hargs : ArgsSim code count fs fuel) (hcall : CallSim code count fs fuel) : EvalSim code count fs (fuel + 1) := by
  have sub : ∀ {env e m v m' L}, eval fs fuel env e m = some (v, m') → Gives code count fs L env e m m' v :=
    fun he n k c => heval _ _ _ _ _ _ n k c he
  intro env e m v m' L n k c h
  suffices hg : env.inside = true ∨ fs = [] → Gives code count fs L env e m m' v from
    fun hat hr => hg hr.callable n k c hat hr
  intro hcallable
  cases e <;>
    simp only [eval, bind, Option.bind_eq_some_iff, pure, Option.some.injEq, Prod.exists, Prod.mk.injEq] at h
  case int =>
    obtain ⟨rfl, rfl⟩ := h
    exact .int _
  case var =>
    obtain ⟨w, hx, _, hv, rfl, rfl⟩ := h
    exact .var hx hv
  case call =>
    obtain ⟨vs, m1, he, hf⟩ := h
    rcases hcallable with hin | rfl
    · exact .call hargs hcall hin he hf
    · cases fuel <;> simp [IntLang.call] at hf
  case plus => exact (sub h).plus
  case minus =>
    obtain ⟨_, _, he, rfl, rfl⟩ := h
    exact (sub he).minus
  case not =>
    obtain ⟨_, _, he, rfl, rfl⟩ := h
    exact (sub he).not
  case arith =>
    obtain ⟨_, _, hl, _, _, hr, _, hv, rfl, rfl⟩ := h
    exact (sub hl).arith (sub hr) hv
  case compare =>
    obtain ⟨_, _, hl, _, _, hr, rfl, rfl⟩ := h
    exact (sub hl).compare (sub hr)
  case logic =>
    obtain ⟨_, _, hl, _, _, hr, rfl, rfl⟩ := h
    exact (sub hl).logic (sub hr)
  case cond =>
    obtain ⟨_, _, ht, h⟩ := h
    exact .cond hc.loads (sub ht) (fun hv => sub (by rwa [if_neg hv] at h)) fun hv => sub (by rwa [if_pos hv] at h)
  case comma =>
    obtain ⟨_, _, ha, hb⟩ := h
    exact (sub ha).comma (sub hb)
  case assign =>
    obtain ⟨_, hx, _, _, he, rfl, rfl⟩ := h
    exact .assign hx (sub he)
  case step =>
    obtain ⟨_, hx, _, hv, rfl, rfl⟩ := h
    exact .step hx hv

end Expr

end MiniC.IntLang
