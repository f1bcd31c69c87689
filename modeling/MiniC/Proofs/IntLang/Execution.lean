import MiniC.Proofs.IntLang.Simulation

/-!
# Statements, loops and calls

The code of a statement goes to its end, to the labels of the loop around it, or to a `retf` with the result in
the frame, as the statement is left. From this a call leaves the result on the stack of the caller.
-/

namespace MiniC.IntLang

open Machine
open Option (bind_eq_some_iff)

/-- Where the code of a statement goes when the statement is left in some way. -/
def Leaves (code : List Line) (L : Layout) (again after : Option Label) (k k' : Nat) (c : Machine.Config) (m : Mem) :
    Exit → Prop
  | .normal => ∃ ws, Computes code L k k' c m ws
  | .brk => ∀ l j, after = some l → target code l = some j → ∃ ws, Computes code L k j c m ws
  | .cont => ∀ l j, again = some l → target code l = some j → ∃ ws, Computes code L k j c m ws
  | .ret v => ∃ j ws mem, At code j (Emit.code [.retf]) ∧ Reach code k c j { c with mem, stack := ws } ∧
      mem c.mp = .int v ∧ Holds L c.mp m mem ∧ Keeps L c.mp c.mem mem

/-- With some fuel, the code of a statement goes where the statement is left to. -/
def ExecSim (code : List Line) (count : Nat) (fs : List Closure) (fuel : Nat) : Prop :=
  ∀ (env : Env) (s : Stmt) (m : Mem) (exit : Exit) (m' : Mem) (L : Layout) (again after : Option Label) (n k : Nat)
      (c : Machine.Config),
    exec fs fuel env s m = some (exit, m') → At code k (s.code env again after n) → env.inside = true →
      (s.bind env).next ≤ L.frame → Ready count fs L env m c →
        Leaves code L again after k (k + size (s.code env again after n)) c m' exit

/-- With some fuel, the code of a condition leaves a truth value. -/
def ConditionSim (code : List Line) (count : Nat) (fs : List Closure) (fuel : Nat) : Prop :=
  ∀ (env : Env) (e : Option Expr) (m : Mem) (v : Int) (m' : Mem) (L : Layout) (n k : Nat) (c : Machine.Config),
    evalOption fs fuel env e m = some (v, m') → At code k (conditionCode env n e) → Ready count fs L env m c →
      Computes code L k (k + size (conditionCode env n e)) c m' (.bool (v != 0) :: c.stack)

/-- With some fuel, the code after a round of a loop has the effect that it should. -/
def IterationSim (code : List Line) (count : Nat) (fs : List Closure) (fuel : Nat) : Prop :=
  ∀ (env : Env) (e : Option Expr) (m : Mem) (v : Int) (m' : Mem) (L : Layout) (n k : Nat) (c : Machine.Config),
    evalOption fs fuel env e m = some (v, m') → At code k (iterationCode env n e) → Ready count fs L env m c →
      ∃ ws, Computes code L k (k + size (iterationCode env n e)) c m' ws

/-- A loop in code: its test, where it is continued and where it ends. -/
structure LoopAt (code : List Line) (env : Env) (cond it : Option Expr) (s : Stmt) (again after : Label)
    (test next stop : Nat) : Prop where
  again_eq : target code again = some next
  after_eq : target code after = some stop
  body : ∃ n n', At code test
      (conditionCode env n cond ++ Emit.code [.fjp after] ++ s.code env (some again) (some after) n') ∧
    ∀ c, Reach code (test + size (conditionCode env n cond ++ Emit.code [.fjp after] ++
      s.code env (some again) (some after) n')) c next c
  iteration : ∃ n, At code next (iterationCode env n it) ∧
    ∀ c, Reach code (next + size (iterationCode env n it)) c test c

def RoundsSim (code : List Line) (count : Nat) (fs : List Closure) (fuel : Nat) : Prop :=
  ∀ (env : Env) (cond it : Option Expr) (s : Stmt) (m : Mem) (exit : Exit) (m' : Mem) (L : Layout)
      (again after : Label) (test next stop : Nat) (c : Machine.Config),
    rounds fs fuel env cond it s m = some (exit, m') → LoopAt code env cond it s again after test next stop →
      env.inside = true → (s.bind env).next ≤ L.frame → Ready count fs L env m c →
        Leaves code L none none test stop c m' exit

section

variable {code : List Line} {count : Nat} {fs : List Closure} {fuel : Nat} {env env' : Env} {L : Layout}
  {m m1 m2 : Mem} {c : Machine.Config} {k k1 k2 n : Nat} {ws ws1 ws2 : List Word} {x : String} {w : Var} {v : Int}
  {e t : Expr} {a b s : Stmt} {again after : Option Label} {exit : Exit}

/-! ## Runs of statements -/

theorem Computes.leaves (h : Computes code L k k1 c m1 ws1) (hr : Ready count fs L env m c)
    (h' : ∀ mem, Ready count fs L env m1 { c with mem, stack := ws1 } →
      Leaves code L again after k1 k2 { c with mem, stack := ws1 } m2 exit) :
    Leaves code L again after k k2 c m2 exit := by
  obtain ⟨mem1, hreach, hm1, hkeep⟩ := h
  have h' := h' mem1 ⟨hr.globals_eq, hr.ok, hr.callable, hr.frame.congr hkeep ws1, hm1⟩
  have comp : ∀ {j}, (∃ ws, Computes code L k1 j { c with mem := mem1, stack := ws1 } m2 ws) →
      ∃ ws, Computes code L k j c m2 ws := by
    rintro j ⟨ws, mem2, hreach', hm2, hkeep'⟩
    exact ⟨ws, mem2, hreach.trans hreach', hm2, hkeep.trans hkeep'⟩
  cases exit with
  | normal => exact comp h'
  | brk => exact fun l j hl hj => comp (h' l j hl hj)
  | cont => exact fun l j hl hj => comp (h' l j hl hj)
  | ret v =>
    obtain ⟨j, ws, mem2, hat, hreach', hv, hm2, hkeep'⟩ := h'
    exact ⟨j, ws, mem2, hat, hreach.trans hreach', hv, hm2, hkeep.trans hkeep'⟩

theorem Leaves.cast (h : Leaves code L again after k k1 c m exit) (he : k1 = k2) :
    Leaves code L again after k k2 c m exit := he ▸ h

theorem Ready.congr_env (hr : Ready count fs L env m c) (hok : env'.Ok L) (hin : env'.inside = env.inside) :
    Ready count fs L env' m c :=
  ⟨hr.globals_eq, hok, hin ▸ hr.callable, hin ▸ hr.frame, hr.holds⟩

theorem Ready.congr_mem (hr : Ready count fs L env m c) (hm : Holds L c.mp m1 c.mem) :
    Ready count fs L env m1 c :=
  ⟨hr.globals_eq, hr.ok, hr.callable, hr.frame, hm⟩

/-- The value of an expression statement goes to cell 0, or stays on the stack. -/
theorem Gives.dropped (hg : Gives code count fs L env e m m1 v) (h : At code k (e.dropped env n))
    (hr : Ready count fs L env m c) : ∃ ws, Computes code L k (k + size (e.dropped env n)) c m1 ws := by
  have away (h : At code k (Emit.code [.ldc .address (.number 0)] ++ e.code env n ++ Emit.code [.sto .int])) :
      ∃ ws, Computes code L k (k + size (Emit.code [.ldc .address (.number 0)] ++ e.code env n ++
        Emit.code [.sto .int])) c m1 ws := by
    have hzero : Computes code L k (k + 1) c m (.address 0 :: c.stack) :=
      Computes.stack h.left.left (by simp) hr.holds
    refine ⟨c.stack, hzero.andThen hr fun _ hr1 => ?_⟩
    refine (hg _ _ _ h.left.right hr1).andThen hr1 fun _ hr2 => ?_
    exact (hr2.store_zero (h.right.cast (by simp <;> omega)) (acts_dropEnd rfl hr2.zero_le_floor)).cast
      (by simp <;> omega)
  cases e with
  | not e => exact ⟨_, hg n k c h hr⟩
  | _ => exact away h

/-- A declaration gives the next variable its value. -/
theorem Ready.store_next (hr : Ready count fs L env m c) (hn : env.next < L.frame)
    (h : At code k (Emit.code [.str .int 0 (env.next + Emit.frameOffset)])) (hs : c.stack = .int v :: ws) :
    Computes code L k (k + 1) c (m.set (.frame env.next) (some v)) ws := by
  have hin := hr.frame.inMemory (w := .frame env.next) hn
  have hcell : c.mp + ((env.next : Int) + 5) = c.mp + 5 + env.next := by omega
  simp only [Machine.Config.InMemory, Var.cell] at hin
  refine hr.store_var (w := .frame env.next) hn h ?_
  simp [hs, Emit.frameOffset, Var.cell, hcell, hin]

/-- The result of a function goes to the first cell of its frame. -/
theorem Ready.store_result (hr : Ready count fs L env m c) (hin : env.inside = true)
    (h : At code k (Emit.code [.str .int 0 0])) (hs : c.stack = .int v :: ws) :
    ∃ mem, Reach code k c (k + 1) { c with mem, stack := ws } ∧ mem c.mp = .int v ∧ Holds L c.mp m mem ∧
      Keeps L c.mp c.mem mem := by
  have habove := hr.frame.above hin
  have hfloor : c.mp ≤ c.floor := by have := hr.frame.frame_le; omega
  have hmp := hr.frame.mp_nonneg
  refine ⟨Function.update c.mem c.mp (.int v), .act h ?_, by simp, ⟨fun w u hw hu => ?_⟩,
    .update (by simp [Kept]) _⟩
  · simp [hs, hmp, hfloor]
  · have hne : w.cell c.mp ≠ c.mp := by cases w <;> simp only [Var.cell, Var.In] at * <;> omega
    rw [Function.update_of_ne hne]
    exact hr.holds.var w u hw hu

theorem Leaves.of_ne_normal (h : Leaves code L again after k k1 c m exit) (hne : exit ≠ .normal) :
    Leaves code L again after k k2 c m exit := by
  cases exit with
  | normal => exact absurd rfl hne
  | _ => exact h

/-- A loop that is left by a result. -/
theorem Leaves.of_ret (h : Leaves code L again after k k1 c m (.ret v)) {again' after' : Option Label} :
    Leaves code L again' after' k k2 c m (.ret v) := h

/-! ## Loops -/

theorem conditionSim_succ (heval : EvalSim code count fs fuel) : ConditionSim code count fs (fuel + 1) := by
  intro env e m v m' L n k c h hat hr
  cases e with
  | none =>
    simp only [evalOption, Option.some.injEq, Prod.mk.injEq] at h
    obtain ⟨rfl, rfl⟩ := h
    exact .stack hat (by simp) hr.holds
  | some e =>
    simp only [evalOption] at h
    simp only [conditionCode] at hat ⊢
    refine ((heval _ _ _ _ _ _ _ _ _ h hat.left hr).andThen hr fun _ hr1 =>
      .stack hat.right (acts_truth rfl) hr1.holds).cast ?_
    simp [Nat.add_assoc]

theorem iterationSim_succ (heval : EvalSim code count fs fuel) : IterationSim code count fs (fuel + 1) := by
  intro env e m v m' L n k c h hat hr
  cases e with
  | none =>
    simp only [evalOption, Option.some.injEq, Prod.mk.injEq] at h
    obtain ⟨-, rfl⟩ := h
    exact ⟨c.stack, .refl hr.holds⟩
  | some e =>
    simp only [evalOption] at h
    exact Gives.dropped (fun n k c => heval _ _ _ _ _ _ n k c h) hat hr

theorem loopAt_while (hc : Loads code) (h : At code k ((Stmt.whileLoop t s).code env again after n)) :
    LoopAt code env (some t) none s (.numbered (n + 1) .whileCondition) (.numbered (n + 2) .whileAfter) k k
      (k + size ((Stmt.whileLoop t s).code env again after n)) := by
  simp only [Stmt.code] at h ⊢
  refine ⟨At.target hc h.left.left.left.left, (At.target hc h.right.tail).trans (by simp <;> omega),
    ⟨n + 2, n + 2 + t.labels, ?_, fun c => ?_⟩, ⟨0, ?_, fun c => .refl _ _ _⟩⟩
  · have hmid : At code k ([.label (.numbered (n + 1) .whileCondition)]
        ++ (conditionCode env (n + 2) (some t) ++ Emit.code [.fjp (.numbered (n + 2) .whileAfter)]
        ++ s.code env (some (.numbered (n + 1) .whileCondition)) (some (.numbered (n + 2) .whileAfter))
          (n + 2 + t.labels))) := by simpa [conditionCode, Emit.code] using h.left
    exact hmid.right
  · exact Reach.ujp (h.right.cast (by simp [conditionCode] <;> omega)) (At.target hc h.left.left.left.left)
  · exact At.left (show At code k ([] ++ _) from h)

/-- The lines of a loop behind what is done first. -/
theorem loopAt_for {cond it : Option Expr} {la lb lt : Label} {n1 n2 n3 : Nat} (hc : Loads code)
    (h : At code k (forCode la lt lb (conditionCode env n1 cond) (s.code env (some la) (some lb) n2)
      (iterationCode env n3 it))) :
    LoopAt code env cond it s la lb k
      (k + size (conditionCode env n1 cond ++ Emit.code [.fjp lb] ++ s.code env (some la) (some lb) n2))
      (k + size (forCode la lt lb (conditionCode env n1 cond) (s.code env (some la) (some lb) n2)
        (iterationCode env n3 it))) := by
  simp only [forCode] at h ⊢
  have htest := At.target hc h.left.left.left.left.left.left
  refine ⟨(At.target hc h.left.left.right).trans (by simp), (At.target hc h.right.tail).trans (by simp <;> omega),
    ⟨n1, n2, ?_, fun c => .refl _ _ _⟩, ⟨n3, h.left.right.cast (by simp), fun c => ?_⟩⟩
  · have hmid : At code k ([.label lt] ++ (conditionCode env n1 cond ++ Emit.code [.fjp lb]
        ++ s.code env (some la) (some lb) n2)) := by simpa using h.left.left.left
    exact hmid.right
  · exact Reach.ujp (h.right.cast (by simp <;> omega)) htest

theorem roundsSim_next {cond it : Option Expr} {la lb : Label} {test next stop : Nat}
    (hiter : IterationSim code count fs fuel) (hrounds : RoundsSim code count fs fuel)
    (hloop : LoopAt code env cond it s la lb test next stop) (hin : env.inside = true)
    (hn : (s.bind env).next ≤ L.frame) (hi : evalOption fs fuel env it m = some (v, m1))
    (h : rounds fs fuel env cond it s m1 = some (exit, m2)) (hr : Ready count fs L env m c) :
    Leaves code L none none next stop c m2 exit := by
  obtain ⟨n, hat, hback⟩ := hloop.iteration
  obtain ⟨ws, hcomp⟩ := hiter _ _ _ _ _ _ _ _ _ hi hat hr
  refine hcomp.leaves hr fun _ hr1 => ?_
  have hstay : Computes code L (next + size (iterationCode env n it)) test _ m1 ws :=
    ⟨_, hback _, hr1.holds, .refl _ _ _⟩
  exact hstay.leaves hr1 fun _ hr2 => hrounds _ _ _ _ _ _ _ _ _ _ _ _ _ _ h hloop hin hn hr2

theorem roundsSim_succ (hcond : ConditionSim code count fs fuel) (hiter : IterationSim code count fs fuel)
    (hexec : ExecSim code count fs fuel) (hrounds : RoundsSim code count fs fuel) :
    RoundsSim code count fs (fuel + 1) := by
  intro env cond it s m exit m' L la lb test next stop c h hloop hin hn hr
  simp only [rounds, bind, bind_eq_some_iff, Prod.exists] at h
  obtain ⟨v, m1, hc, h⟩ := h
  obtain ⟨n, n', hat, hend⟩ := hloop.body
  refine (hcond _ _ _ _ _ _ _ _ _ hc hat.left.left hr).leaves hr fun _ hr1 => ?_
  refine (hr1.fjp hat.left.right rfl hloop.after_eq).leaves hr1 fun _ hr2 => ?_
  by_cases hv : v = 0
  · simp only [hv, if_true, pure, Option.some.injEq, Prod.mk.injEq] at h
    obtain ⟨rfl, rfl⟩ := h
    simp only [hv, bne_self_eq_false, Bool.false_eq_true, if_false]
    exact ⟨_, .refl hr2.holds⟩
  · simp only [hv, if_false, bind_eq_some_iff, Prod.exists] at h
    obtain ⟨exit', m2, hbody, h⟩ := h
    have hat' : At code (test + size (conditionCode env n cond) + 1) _ := hat.right.cast (by simp <;> omega)
    have hbody := hexec _ _ _ _ _ _ _ _ _ _ _ hbody hat' hin hn hr2
    simp only [bne_iff_ne, ne_eq, hv, not_false_eq_true, if_true]
    cases exit' with
    | normal =>
      obtain ⟨ws, hbody⟩ := hbody
      simp only [bind_eq_some_iff, Prod.exists] at h
      obtain ⟨_, m3, hi, h⟩ := h
      refine hbody.leaves hr2 fun _ hr3 => ?_
      have hstay : Computes code L _ next _ m2 ws := ⟨_, hend _, hr3.holds, .refl _ _ _⟩
      have hat_end : ∀ ls, test + size (conditionCode env n cond ++ Emit.code [.fjp lb] ++ ls) =
          test + size (conditionCode env n cond) + 1 + size ls := by intro ls; simp <;> omega
      rw [← hat_end]
      exact hstay.leaves hr3 fun _ hr4 => roundsSim_next hiter hrounds hloop hin hn hi h hr4
    | brk =>
      obtain ⟨rfl, rfl⟩ : Exit.normal = exit ∧ m2 = m' := by simpa using h
      exact hbody _ _ rfl hloop.after_eq
    | cont =>
      simp only [bind_eq_some_iff, Prod.exists] at h
      obtain ⟨_, m3, hi, h⟩ := h
      obtain ⟨ws, hbody⟩ := hbody _ _ rfl hloop.again_eq
      exact hbody.leaves hr2 fun _ hr3 => roundsSim_next hiter hrounds hloop hin hn hi h hr3
    | ret v =>
      obtain ⟨rfl, rfl⟩ : Exit.ret v = exit ∧ m2 = m' := by simpa using h
      exact hbody

/-! ## Calls -/

theorem foldl_declare_next (params : List String) (env : Env) :
    (params.foldl Env.declare env).next = env.next + params.length := by
  induction params generalizing env with
  | nil => rfl
  | cons p ps ih => simp [ih, Nat.add_assoc, Nat.add_comm 1]

theorem foldl_declare_ok {params : List String} (h : env.Ok L) (hin : env.inside = true)
    (hn : env.next + params.length ≤ L.frame) : (params.foldl Env.declare env).Ok L := by
  induction params generalizing env with
  | nil => exact h
  | cons p ps ih =>
    simp only [List.length_cons] at hn
    exact ih (h.declare hin (by omega) p) (by simpa using hin) (by simp; omega)

@[simp] theorem foldl_declare_inside (params : List String) (env : Env) :
    (params.foldl Env.declare env).inside = env.inside := by
  induction params generalizing env with
  | nil => rfl
  | cons p ps ih => simp [ih]

theorem Closure.params_le_cells (g : Closure) : g.function.params.length ≤ g.cells := by
  have := g.function.body.next_le_bind (Env.ofFunction g.globals g.function.params)
  rwa [Env.ofFunction, foldl_declare_next, Nat.zero_add] at this

/-- The frame of a function with room for its variables. -/
abbrev room (c : Machine.Config) (count k cells : Nat) : Machine.Config := (c.entered count k).raised (cells + Emit.frameOffset)

section Call

variable {g : Closure} {vs : List Int} {inside : Bool}
  (hs : c.stack = (vs.map .int).reverse ++ frameWords c 0 ++ ws) (hlen : vs.length = g.function.params.length)
include hs hlen

omit hlen in
theorem room_mp : (room c vs.length k g.cells).mp = c.floor + ws.length + 1 := by
  have := Machine.Config.entered_mp (k := k) hs
  simpa [Machine.Config.raised] using this

theorem room_mem {a : Int} (ha : a ≤ c.floor + ws.length + 5 + vs.length) :
    (room c vs.length k g.cells).mem a = (c.entered vs.length k).mem a := by
  have hfloor := Machine.Config.entered_floor (k := k) hs
  rw [List.length_map] at hfloor
  simp only [Machine.Config.raised]
  rw [if_pos (by omega)]

theorem room_inFrame (hf : InFrame L inside c) :
    InFrame ⟨L.globals, g.cells⟩ true (room c vs.length k g.cells) := by
  have hmp := room_mp (g := g) (k := k) hs
  have hglob := hf.globals_le
  have hlink := Machine.Config.entered_link (k := k) hs
  rw [List.length_map] at hlink
  have hfloor : (room c vs.length k g.cells).floor = (room c vs.length k g.cells).mp + (g.cells + 5) - 1 := rfl
  refine ⟨?_, ?_, ?_, by simp, fun _ => ?_, fun _ => ?_⟩
  · simp only [hfloor]; omega
  · simp only [hfloor, hmp]; omega
  · simp only [hmp]; omega
  · simp only [hmp]; omega
  · rw [hmp, room_mem hs hlen (by omega), ← hlink]
    congr 1; omega

theorem room_holds (hf : InFrame L inside c) (hm : Holds L c.mp m c.mem) :
    Holds ⟨L.globals, g.cells⟩ (room c vs.length k g.cells).mp { m with frame := fun i => vs[i]? }
      (room c vs.length k g.cells).mem := by
  have hglob := hf.globals_le
  refine ⟨fun w v hw hv => ?_⟩
  cases w with
  | frame i =>
    have hi : i < vs.length := (List.getElem?_eq_some_iff.1 hv).1
    have harg := Machine.Config.entered_arg (k := k) hs (i := i) (w := .int v) (by simpa [Mem.get] using hv)
    rw [List.length_map] at harg
    rw [← harg, Var.cell, room_mp hs, room_mem hs hlen (by omega)]
    congr 1; omega
  | global i =>
    have hi : (i : Int) < L.globals := by simpa [Var.In] using hw
    have hlow := Machine.Config.entered_low (k := k) hs (a := 5 + (i : Int)) (by omega)
    rw [List.length_map] at hlow
    rw [Var.cell, room_mem hs hlen (by omega), hlow]
    exact hm.var (.global i) v hw hv

theorem ready_function (hf : InFrame L inside c) (hm : Holds L c.mp m c.mem)
    (hglob : ∀ e ∈ g.globals, e.2 < L.globals) (fs : List Closure) :
    Ready L.globals fs ⟨L.globals, g.cells⟩ (Env.ofFunction g.globals g.function.params)
      { m with frame := fun i => vs[i]? } (room c vs.length k g.cells) where
  globals_eq := rfl
  ok := foldl_declare_ok ⟨by simp, hglob⟩ rfl (by simpa using g.params_le_cells)
  callable := .inl (by simp [Env.ofFunction]; rfl)
  frame := by
    have : (Env.ofFunction g.globals g.function.params).inside = true := by simp [Env.ofFunction]; rfl
    rw [this]
    exact room_inFrame hs hlen hf
  holds := room_holds hs hlen hf hm

/-- The cells of the caller and of the frame, but for its result, are as they were when it was entered. -/
theorem room_kept {mem : Int → Word}
    (hk : Keeps ⟨L.globals, g.cells⟩ (room c vs.length k g.cells).mp (room c vs.length k g.cells).mem mem) {a : Int}
    (ha : a ≤ c.floor + ws.length + 5) (h0 : a ≠ 0) (hne : a ≠ c.floor + ws.length + 1)
    (hg : ¬ (5 ≤ a ∧ a < 5 + L.globals)) : mem a = (c.entered vs.length k).mem a := by
  have hmp := room_mp (g := g) (k := k) hs
  rw [hk a ⟨by omega, h0, by omega, hg⟩, room_mem hs hlen (by omega)]

/-- What a function returns to its caller. -/
theorem room_below (hf : InFrame L inside c) {mem : Int → Word} {ws' : List Word}
    (hk : Keeps ⟨L.globals, g.cells⟩ (room c vs.length k g.cells).mp (room c vs.length k g.cells).mem mem) :
    ({ room c vs.length k g.cells with mem, stack := ws' } : Machine.Config).Below { c with mem, stack := ws } := by
  have hmp := room_mp (g := g) (k := k) hs
  have hglob := hf.globals_le
  have hframe := (room_inFrame (k := k) hs hlen hf).frame_le
  refine ⟨by simp only; omega, by simp only [hmp], by simp only at hframe ⊢; omega, fun _ _ => rfl, ?_⟩
  intro i w hw
  have hi : i < ws.length := (List.getElem?_eq_some_iff.1 hw).1
  have hstack := Machine.Config.entered_stack (k := k) hs hw
  rw [List.length_map] at hstack
  simp only [hmp]
  rw [show c.floor + (ws.length : Int) + 1 - 1 - i = c.floor + ws.length - i by omega,
    room_kept hs hlen hk (by omega) (by omega) (by omega) (by omega), hstack]

/-- The run of a call from its body to the caller. -/
theorem reach_return (hf : InFrame L inside c) {mem : Int → Word} {ws' : List Word} {j : Nat}
    (hat : At code j (Emit.code [.retf]))
    (hk : Keeps ⟨L.globals, g.cells⟩ (room c vs.length k g.cells).mp (room c vs.length k g.cells).mem mem) :
    Reach code j { room c vs.length k g.cells with mem, stack := ws' } (k + 1)
      { c with mem, stack := mem (c.floor + ws.length + 1) :: ws } := by
  have hmp := room_mp (g := g) (k := k) hs
  have hglob := hf.globals_le
  have hin := room_inFrame (k := k) hs hlen hf
  have hkept : ∀ i : Int, 1 ≤ i → i ≤ 4 →
      mem (c.floor + ws.length + 1 + i) = (c.entered vs.length k).mem (c.floor + ws.length + 1 + i) := by
    intro i h1 h4
    exact room_kept hs hlen hk (by omega) (by omega) (by omega) (by omega)
  have hcaller := Machine.Config.entered_caller (k := k) hs
  have htop := Machine.Config.entered_callerTop (k := k) hs
  have hret := Machine.Config.entered_return (k := k) hs
  rw [List.length_map] at hcaller htop hret
  have hbelow : ({ room c vs.length k g.cells with mem, stack := ws' } : Machine.Config).Below { c with mem, stack := ws } :=
    room_below hs hlen hf hk
  have hreach := Reach.retf (r := k) hat hbelow
    (by have := hin.frame_le; simp only at this ⊢; omega)
    (by simp only [hmp]; rw [hkept 2 (by omega) (by omega), Int.add_assoc]; exact hcaller)
    (by simp only [hmp]; rw [hkept 3 (by omega) (by omega), Int.add_assoc]; exact htop)
    (by simp only [hmp]; rw [hkept 4 (by omega) (by omega), Int.add_assoc]; exact hret)
  rw [← hmp]
  exact hreach

end Call

/-- The run of a call up to the body of the function. -/
theorem reach_body {f : String} {g : Closure} {vs : List Int} (hc : Linked code count fs)
    (hg : fs.find? (·.function.name == f) = some g) (hlen : vs.length = g.function.params.length)
    (hs : c.stack = (vs.map .int).reverse ++ frameWords c 0 ++ ws)
    (hat : At code k (Emit.code [.cup vs.length (.function f)])) :
    ∃ j n, At code j (g.function.body.code (Env.ofFunction g.globals g.function.params) none none n) ∧
      Reach code k c j (room c vs.length k g.cells) := by
  obtain ⟨k1, n, hat_g⟩ := hc.placed f g hg
  have hname : g.function.name = f := by simpa using List.find?_some hg
  simp only [Closure.code] at hat_g
  have htarget : target code (.function f) = some k1 := by
    rw [← hname]
    exact At.target hc.loads (At.tail hat_g.left.left.left)
  have hcells := g.params_le_cells
  have hfloor := Machine.Config.entered_floor (k := k) hs
  have hmp := Machine.Config.entered_mp (k := k) hs
  rw [List.length_map] at hfloor hmp
  refine ⟨_, n, hat_g.left.right, (Reach.cup hat htarget).trans ?_⟩
  exact Reach.ssp hat_g.left.left.right rfl (by simp only [hfloor, hmp, Emit.frameOffset]; omega)

theorem callSim_succ (hc : Linked code count fs) (hexec : ExecSim code count fs fuel) :
    CallSim code count fs (fuel + 1) := by
  intro f vs m v m' L inside k c ws h hat hL hf hm hs
  simp only [call, bind, bind_eq_some_iff] at h
  obtain ⟨g, hg, h⟩ := h
  split at h
  next hlen =>
    simp only [bind_eq_some_iff, Prod.exists] at h
    obtain ⟨exit, m1, hbody, h⟩ := h
    cases exit with
    | ret v' =>
      obtain ⟨rfl, rfl⟩ : v' = v ∧ { m with globals := m1.globals } = m' := by simpa using h
      subst hL
      obtain ⟨j, n, hat_body, hreach⟩ := reach_body hc hg hlen hs hat
      have hr := ready_function (k := k) hs hlen hf hm (hc.globals g (List.mem_of_find?_eq_some hg)) fs
      have hbody := hexec _ _ _ _ _ _ none none n _ _ hbody hat_body (by simp [Env.ofFunction]; rfl)
        (Nat.le_refl _) hr
      obtain ⟨j', ws', mem, hretf, hreach', hv, hm1, hkeep⟩ := hbody
      rw [room_mp hs] at hv
      have hreturn : Reach code _ { room c vs.length k g.cells with mem, stack := ws' } (k + 1) _ :=
        reach_return hs hlen hf hretf hkeep
      rw [hv] at hreturn
      have hframe := hf.frame_le
      have hglob := hf.globals_le
      have hmp := hf.mp_nonneg
      have hcell : ∀ a, a ≤ c.floor → a ≠ 0 → ¬ (5 ≤ a ∧ a < 5 + (L.globals : Int)) → mem a = c.mem a := by
        intro a ha h0 hg
        have hlow := Machine.Config.entered_low (k := k) hs ha
        rw [List.length_map] at hlow
        rw [room_kept hs hlen hkeep (by omega) h0 (by omega) hg, hlow]
      refine ⟨mem, hreach.trans (hreach'.trans hreturn), ⟨fun w u hw hu => ?_⟩, fun a ha => ?_⟩
      · cases w with
        | frame i =>
          have hi : i < L.frame := hw
          have habove : 5 + (L.globals : Int) ≤ c.mp := by
            cases inside with
            | true => exact hf.above rfl
            | false => have := (hf.outside rfl).2; omega
          rw [← hm.var (.frame i) u hw hu]
          exact hcell _ (by simp only [Var.cell]; omega) (by simp only [Var.cell]; omega)
            (by simp only [Var.cell]; omega)
        | global i => exact hm1.var (.global i) u hw hu
      · exact hcell a (by have := ha.1; omega) ha.2.1 ha.2.2.2
    | _ => cases h
  next => cases h

/-! ## Statements -/

/-- What a loop does first; the value of an expression stays on the stack. -/
theorem initializer_computes {init : Stmt} (heval : ∀ j, j ≤ fuel → EvalSim code count fs j)
    (hexec : ExecSim code count fs fuel) (h : exec fs fuel env init m = some (.normal, m1))
    (hat : At code k (initializerCode env n (init.code env none none n) init))
    (hin : env.inside = true) (hn : (init.bind env).next ≤ L.frame) (hr : Ready count fs L env m c) :
    ∃ ws, Computes code L k (k + size (initializerCode env n (init.code env none none n) init)) c m1 ws := by
  cases init with
  | expr e =>
    cases fuel with
    | zero => simp [exec] at h
    | succ fuel =>
      simp only [exec, bind, bind_eq_some_iff, pure, Option.some.injEq, Prod.exists, Prod.mk.injEq] at h
      obtain ⟨_, _, he, -, rfl⟩ := h
      exact ⟨_, heval fuel (by omega) _ _ _ _ _ _ _ _ _ he hat hr⟩
  | _ => exact hexec _ _ _ _ _ _ none none n _ _ h hat hin hn hr

theorem execSim_succ (hc : Linked code count fs) (heval : ∀ j, j ≤ fuel → EvalSim code count fs j)
    (hexec : ExecSim code count fs fuel) (hrounds : RoundsSim code count fs fuel) :
    ExecSim code count fs (fuel + 1) := by
  have sub : ∀ {env e m v m' L}, eval fs fuel env e m = some (v, m') → Gives code count fs L env e m m' v :=
    fun he n k c => heval fuel (Nat.le_refl _) _ _ _ _ _ _ n k c he
  intro env s m exit m' L again after n k c h hat hin hn hr
  cases s with
  | skip =>
    simp only [exec, Option.some.injEq, Prod.mk.injEq] at h
    obtain ⟨rfl, rfl⟩ := h
    exact ⟨_, .refl hr.holds⟩
  | seq a b =>
    simp only [exec, bind, bind_eq_some_iff, Prod.exists] at h
    obtain ⟨exit', m1, ha, h⟩ := h
    simp only [Stmt.code] at hat ⊢
    have hna := Nat.le_trans (b.next_le_bind (a.bind env)) hn
    have ha := hexec _ _ _ _ _ _ _ _ _ _ _ ha hat.left hin hna hr
    split at h
    next hnormal =>
      subst hnormal
      obtain ⟨ws, ha⟩ := ha
      refine ha.leaves hr fun _ hr1 => ?_
      have hr2 := hr1.congr_env (hr.ok.bind hin a hna) (Stmt.inside_bind a)
      exact (hexec _ _ _ _ _ _ _ _ _ _ _ h hat.right (by simpa using hin) hn hr2).cast (by simp [Nat.add_assoc])
    next hne =>
      simp only [pure, Option.some.injEq, Prod.mk.injEq] at h
      obtain ⟨rfl, rfl⟩ := h
      exact ha.of_ne_normal hne
  | expr e =>
    simp only [exec, bind, bind_eq_some_iff, pure, Option.some.injEq, Prod.exists, Prod.mk.injEq] at h
    obtain ⟨_, _, he, rfl, rfl⟩ := h
    exact (sub he).dropped hat hr
  | decl x init =>
    have hnext : env.next < L.frame := by simp only [Stmt.bind, Env.next_declare] at hn; omega
    simp only [Stmt.code, declCode] at hat ⊢
    cases init with
    | none =>
      simp only [exec, Option.some.injEq, Prod.mk.injEq] at h
      obtain ⟨rfl, rfl⟩ := h
      have hzero : Computes code L k (k + 1) c m (.int 0 :: c.stack) := Computes.stack hat.left (by simp) hr.holds
      refine ⟨c.stack, hzero.andThen hr fun _ hr1 => ?_⟩
      exact (hr1.store_next hnext hat.right rfl).cast (by simp [Nat.add_assoc])
    | some e =>
      simp only [exec, bind, bind_eq_some_iff, pure, Option.some.injEq, Prod.exists, Prod.mk.injEq] at h
      obtain ⟨_, _, he, rfl, rfl⟩ := h
      have hr' := (hr.congr_env (hr.ok.declare hin hnext x) Env.inside_declare).congr_mem
        (hr.holds.set_none (.frame env.next))
      refine ⟨c.stack, (sub he _ _ _ hat.left hr').andThen hr' fun _ hr1 => ?_⟩
      have hr2 := hr1.congr_env hr.ok Env.inside_declare.symm
      exact (hr2.store_next hnext hat.right rfl).cast (by simp <;> omega)
  | ret e =>
    simp only [exec, bind, bind_eq_some_iff, pure, Option.some.injEq, Prod.exists, Prod.mk.injEq] at h
    obtain ⟨v, _, he, rfl, rfl⟩ := h
    simp only [Stmt.code] at hat ⊢
    have hat' : At code (k + size (e.code env n)) (Emit.code [.str .int 0 0] ++ Emit.code [.retf]) := hat.right
    refine (sub he _ _ _ hat.left hr).leaves hr fun _ hr1 => ?_
    obtain ⟨mem, hreach, hv, hm, hk⟩ := hr1.store_result hin hat'.left rfl
    exact ⟨_, _, mem, hat'.right, hreach, hv, hm, hk⟩
  | brk =>
    simp only [exec, Option.some.injEq, Prod.mk.injEq] at h
    obtain ⟨rfl, rfl⟩ := h
    rintro l j rfl hl
    exact ⟨_, .ujp hat hl hr.holds⟩
  | cont =>
    simp only [exec, Option.some.injEq, Prod.mk.injEq] at h
    obtain ⟨rfl, rfl⟩ := h
    rintro l j rfl hl
    exact ⟨_, .ujp hat hl hr.holds⟩
  | block s =>
    simp only [exec] at h
    have hr' := (hr.congr_env hr.ok.opened (by simp [hin])).congr_mem
      (hr.holds.clear env.next (s.bind env.opened).next)
    simp only [Stmt.code] at hat ⊢
    exact hexec _ _ _ _ _ _ _ _ _ _ _ h hat rfl hn hr'
  | ifThen t a =>
    simp only [exec, bind, bind_eq_some_iff, Prod.exists] at h
    obtain ⟨v, m1, ht, h⟩ := h
    simp only [Stmt.code] at hat ⊢
    have helse := At.target hc.loads hat.right
    refine (sub ht _ _ _ hat.left.left.left hr).leaves hr fun _ hr1 => ?_
    refine (hr1.branch hat.left.left.right rfl helse).leaves hr1 fun _ hr2 => ?_
    by_cases hv : v = 0
    · simp only [hv, if_true, pure, Option.some.injEq, Prod.mk.injEq] at h ⊢
      obtain ⟨rfl, rfl⟩ := h
      exact ⟨_, (Computes.refl hr2.holds).cast (by simp)⟩
    · simp only [hv, if_false] at h ⊢
      exact (hexec _ _ _ _ _ _ _ _ _ _ _ h (hat.left.right.cast (by simp <;> omega)) hin hn hr2).cast
        (by simp <;> omega)
  | ifElse t a b =>
    simp only [exec, bind, bind_eq_some_iff, Prod.exists] at h
    obtain ⟨v, m1, ht, h⟩ := h
    simp only [Stmt.code] at hat ⊢
    have hna := Nat.le_trans (b.next_le_bind (a.bind env)) hn
    have helse := At.target hc.loads hat.left.left.right.tail
    have hafter := At.target hc.loads hat.right
    refine (sub ht _ _ _ hat.left.left.left.left.left hr).leaves hr fun _ hr1 => ?_
    refine (hr1.branch hat.left.left.left.left.right rfl helse).leaves hr1 fun _ hr2 => ?_
    by_cases hv : v = 0
    · simp only [hv, if_true] at h ⊢
      have hr3 := hr2.congr_env (hr.ok.bind hin a hna) (Stmt.inside_bind a)
      exact (hexec _ _ _ _ _ _ _ _ _ _ _ h (hat.left.right.cast (by simp <;> omega)) (by simpa using hin) hn
        hr3).cast (by simp <;> omega)
    · simp only [hv, if_false] at h ⊢
      have hat' : At code (k + size (t.code env (n + 2)) + 2) _ := hat.left.left.left.right.cast (by simp <;> omega)
      have ha := hexec _ _ _ _ _ _ _ _ _ _ _ h hat' hin hna hr2
      cases exit with
      | normal =>
        obtain ⟨ws, ha⟩ := ha
        refine ⟨ws, ha.andThen hr2 fun _ hr3 => ?_⟩
        exact (Computes.ujp (hat.left.left.right.head.cast (by simp <;> omega)) hafter hr3.holds).cast
          (by simp)
      | _ => exact ha.of_ne_normal (by simp)
  | whileLoop t s =>
    simp only [exec] at h
    have hloop := hrounds _ _ _ _ _ _ _ _ _ _ _ _ _ _ h (loopAt_while hc.loads hat) hin hn hr
    obtain rfl | ⟨v, rfl⟩ := rounds_exit h
    · exact hloop
    · exact hloop.of_ret
  | forLoop init t it s =>
    simp only [exec, bind, bind_eq_some_iff, Prod.exists] at h
    obtain ⟨exit', m1, hinit, h⟩ := h
    split at h
    next hnormal =>
      subst hnormal
      have hni : (init.bind env.opened).next ≤ L.frame := Nat.le_trans (s.next_le_bind _) hn
      have hr' := (hr.congr_env hr.ok.opened (by simp [hin])).congr_mem
        (hr.holds.clear env.next (s.bind (init.bind env.opened)).next)
      simp only [Stmt.code] at hat ⊢
      obtain ⟨ws, hcomp⟩ := initializer_computes heval hexec hinit hat.left rfl hni hr'
      have hleave := hcomp.leaves hr' fun _ hr1 =>
        hrounds _ _ _ _ _ _ _ _ _ _ _ _ _ _ h (loopAt_for hc.loads hat.right) (by simp) hn
          (hr1.congr_env (hr'.ok.bind rfl init hni) (Stmt.inside_bind init))
      rw [Nat.add_assoc, ← size_append] at hleave
      obtain rfl | ⟨v, rfl⟩ := rounds_exit h
      · exact hleave
      · exact hleave.of_ret
    next => cases h

end

end MiniC.IntLang
