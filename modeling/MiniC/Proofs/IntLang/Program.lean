import MiniC.Proofs.IntLang.Execution

/-!
# Programs

The code of a program gives the globals their values, calls the main function and halts with its result on
top of the stack.
-/

namespace MiniC.IntLang

variable {globals : List (String × Nat)} {fuel : Nat}

open Machine

/-! ## All fuel -/

structure Sim (code : List Line) (count : Nat) (fs : List Closure) (fuel : Nat) : Prop where
  eval : ∀ j, j ≤ fuel → EvalSim code count fs j
  args : ArgsSim code count fs fuel
  call : CallSim code count fs fuel
  exec : ExecSim code count fs fuel
  condition : ConditionSim code count fs fuel
  iteration : IterationSim code count fs fuel
  rounds : RoundsSim code count fs fuel

variable {code : List Line} {count : Nat} {fs : List Closure} {k n : Nat} {c : Machine.Config} {m m' : Mem} {p : Program}

theorem sim (hc : Linked code count fs) (fuel : Nat) : Sim code count fs fuel := by
  induction fuel with
  | zero =>
    constructor
    case eval =>
      intro j hj env e m v m' L n k c h
      obtain rfl : j = 0 := by omega
      simp [IntLang.eval] at h
    all_goals
      intro _ _ _ _ _ _ _ _ _
      simp [evalArgs, IntLang.call, IntLang.exec, evalOption, IntLang.rounds]
  | succ fuel ih =>
    have heval := ih.eval fuel (Nat.le_refl _)
    refine ⟨fun j hj => ?_, argsSim_succ heval ih.args, callSim_succ hc ih.exec,
      execSim_succ hc ih.eval ih.exec ih.rounds, conditionSim_succ heval, iterationSim_succ heval,
      roundsSim_succ ih.condition ih.iteration ih.exec ih.rounds⟩
    obtain hj | rfl := Nat.le_succ_iff.1 hj
    · exact ih.eval j hj
    · exact evalSim_succ hc heval ih.args ih.call

/-! ## Globals -/

/-- The globals of a program have numbers below their count. -/
def Bounded (globals : List (String × Nat)) : Prop := ∀ e ∈ globals, e.2 < globals.length

theorem Bounded.cons (h : Bounded globals) (x : String) : Bounded ((x, globals.length) :: globals) := by
  intro e he
  obtain rfl | he := List.mem_cons.1 he
  · simp
  · have := h e he
    simp only [List.length_cons]
    omega

theorem linked_nil (hload : Loads code) : Linked code count [] := ⟨hload, by simp, by simp⟩

theorem global_computes (hload : Loads code) (hb : Bounded globals) (hcount : globals.length < count) {x : String}
    {init : Option Expr} {v : Int}
    (h : globalValue fuel ⟨[], (x, globals.length) :: globals, globals.length + 1⟩ init m = some (v, m'))
    (hat : At code k (declCode ⟨[], globals, globals.length⟩ x init n)) (hf : InFrame ⟨count, 0⟩ false c)
    (hm : Holds ⟨count, 0⟩ c.mp m c.mem) :
    Computes code ⟨count, 0⟩ k (k + size (declCode ⟨[], globals, globals.length⟩ x init n)) c
      (m'.set (.global globals.length) (some v)) c.stack := by
  have hok : Env.Ok ⟨[], (x, globals.length) :: globals, globals.length + 1⟩ ⟨count, 0⟩ := by
    refine ⟨by simp, fun e he => ?_⟩
    have := hb.cons x e he
    simp only [List.length_cons] at this
    exact Nat.lt_of_lt_of_le this hcount
  have hr : Ready count [] ⟨count, 0⟩ ⟨[], (x, globals.length) :: globals, globals.length + 1⟩ m c :=
    ⟨rfl, hok, .inr rfl, hf, hm⟩
  simp only [declCode] at hat ⊢
  have hvalue : Computes code ⟨count, 0⟩ k (k + size (initialCode (Env.declare ⟨[], globals, globals.length⟩ x) n init))
      c m' (.int v :: c.stack) := by
    cases init with
    | none =>
      obtain ⟨rfl, rfl⟩ : 0 = v ∧ m = m' := by simpa [globalValue] using h
      exact .stack hat.left (by simp) hm
    | some e => exact (sim (linked_nil hload) fuel).eval fuel (Nat.le_refl _) _ _ _ _ _ _ _ _ _ h hat.left hr
  rw [size_append, ← Nat.add_assoc]
  refine hvalue.andThen hr fun mem hr1 => ?_
  have hmp : c.mp = 0 := (hf.outside rfl).1
  have hfloor := hf.globals_le
  have hoff : (0 : Int) ≤ globals.length + 5 ∧ (globals.length : Int) + 5 ≤ c.floor := by
    simp only at hfloor; omega
  refine hr1.store_var (w := .global globals.length) hcount hat.right ?_
  simp [Emit.frameOffset, Var.cell, hmp, hoff, Int.add_comm]

theorem globals_computes (hload : Loads code) (hb : Bounded globals) (hcount : globals.length + globalsCount p ≤ count)
    (h : startGlobals fuel globals p m = some m') (hat : At code k (globalsCode globals p n))
    (hf : InFrame ⟨count, 0⟩ false c) (hm : Holds ⟨count, 0⟩ c.mp m c.mem) :
    Computes code ⟨count, 0⟩ k (k + size (globalsCode globals p n)) c m' c.stack := by
  induction p generalizing globals m n k c with
  | nil =>
    simp only [startGlobals, Option.some.injEq] at h
    subst h
    exact .refl hm
  | cons item rest ih =>
    cases item with
    | function f => exact ih hb hcount h hat hf hm
    | var x init =>
      simp only [startGlobals, bind, Option.bind_eq_some_iff, Prod.exists] at h
      obtain ⟨v, m1, hv, h⟩ := h
      simp only [globalsCount] at hcount
      simp only [globalsCode] at hat ⊢
      refine (global_computes hload hb (by omega) hv hat.left hf hm).trans hf fun mem hf1 hm1 => ?_
      exact (ih (hb.cons x) (by simp only [List.length_cons]; omega) h hat.right hf1 hm1).cast
        (by simp [Nat.add_assoc])

/-! ## Functions -/

theorem closures_globals (hb : Bounded globals) (hcount : globals.length + globalsCount p ≤ count) {g : Closure}
    (hg : g ∈ closures globals p) : ∀ e ∈ g.globals, e.2 < count := by
  induction p generalizing globals with
  | nil => simp [closures] at hg
  | cons item rest ih =>
    cases item with
    | var x init =>
      simp only [globalsCount] at hcount
      exact ih (hb.cons x) (by simp only [List.length_cons]; omega) hg
    | function f =>
      obtain rfl | hg := List.mem_cons.1 hg
      · intro e he
        have := hb e he
        omega
      · exact ih hb hcount hg

theorem at_functionsCode {gs : List Closure} (h : At code k (functionsCode gs n)) {g : Closure} (hg : g ∈ gs) :
    ∃ k n, At code k (g.code n) := by
  induction gs generalizing k n with
  | nil => simp at hg
  | cons g' gs ih =>
    simp only [functionsCode] at h
    obtain rfl | hg := List.mem_cons.1 hg
    · exact ⟨k, n, h.left⟩
    · exact ih h.right hg

theorem at_self (code : List Line) : At code 0 code := ⟨[], [], by simp, rfl⟩

theorem linked_program (hload : Loads (programCode p)) :
    Linked (programCode p) (globalsCount p) (closures [] p) where
  loads := hload
  placed f g hg := at_functionsCode (At.right (at_self (programCode p))) (List.mem_of_find?_eq_some hg)
  globals g hg := closures_globals (by simp [Bounded]) (by simp) hg

/-! ## The run -/

/-- The store before a program starts. -/
def blankConfig : Machine.Config := ⟨-1, 0, 0, fun _ => .empty, []⟩

theorem shows_blank : blankConfig.Shows {} := ⟨Int.le_refl _, rfl, rfl, rfl, fun _ _ => rfl, by simp [blankConfig]⟩

/-- The start of a program: the cells at the bottom of the store, and empty ones for the globals. -/
theorem start_reach (h : At code 0 (Emit.code (startCode count))) :
    ∃ mem, Reach code 0 blankConfig 4 ⟨count + 4, 0, 0, mem, []⟩ := by
  have hat : At code 0 (Emit.code [.ldc .int (.number 0), .ldc .int (.number 0), .ldc .int (.number 0)]
      ++ Emit.code [.ssp (count + Emit.frameOffset)]) := h
  let zeros : Machine.Config := ⟨-1, 0, 0, fun _ => .empty, [.int 0, .int 0, .int 0]⟩
  have hzeros : Reach code 0 blankConfig 3 zeros := Reach.acts hat.left (by simp [blankConfig, zeros])
  have hle : zeros.lowered.floor ≤ zeros.lowered.mp + (count + Emit.frameOffset) - 1 := by
    simp [Machine.Config.lowered, zeros, Emit.frameOffset]
    omega
  have hraise : Reach code 3 zeros.lowered 4 (zeros.lowered.raised (count + Emit.frameOffset)) :=
    Reach.ssp hat.right rfl hle
  have hfloor : (zeros.lowered.raised (count + Emit.frameOffset)).floor = count + 4 := by
    simp [Machine.Config.raised, Machine.Config.lowered, zeros, Emit.frameOffset]
    omega
  exact ⟨(zeros.lowered.raised (count + Emit.frameOffset)).mem, hfloor ▸ (hzeros.trans (.lowered _ _ _)).trans hraise⟩

/-- Code that has reached its end with a value on top of the stack halts with it. -/
theorem halts_of_reach {ls : List Line} (hreach : Reach code 0 blankConfig k c) (h : At code k (.instr .hlt :: ls)) :
    ∃ s, Halts code {} s ∧ c.Shows s := by
  obtain ⟨s, hsteps, hk, hs⟩ := hreach {} rfl shows_blank
  exact ⟨s, ⟨s, hsteps, by simp only [step, hk, h.fetch]⟩, hs⟩

/-- A program that runs to a value halts with it on top of the stack, and the cells of its globals hold what
the globals hold. -/
theorem halts_of_run (hload : Loads (programCode p)) {v : Int} (h : run fuel p = some (v, m)) :
    ∃ s, Halts (programCode p) {} s ∧ s.top = .int v ∧
      ∀ i u, i < globalsCount p → m.globals i = some u → s.store (5 + i) = .int u := by
  simp only [run, bind, Option.bind_eq_some_iff] at h
  obtain ⟨m0, hglobals, hmain⟩ := h
  have hat : At (programCode p) 0 (Emit.code (startCode (globalsCount p)) ++ globalsCode [] p 0 ++ Emit.code mainCode
      ++ functionsCode (closures [] p) (globalsLabels p)) := at_self _
  obtain ⟨mem, hstart⟩ := start_reach hat.left.left.left
  have hf : InFrame ⟨globalsCount p, 0⟩ false ⟨globalsCount p + 4, 0, 0, mem, []⟩ :=
    ⟨by grind, by grind, by simp, by simp, by simp, by simp⟩
  obtain ⟨mem1, hreach1, hm1, hkeep⟩ := globals_computes hload (by simp [Bounded]) (by simp) hglobals
    hat.left.left.right hf ⟨by rintro (_ | _) <;> simp [Mem.get]⟩
  have hf1 := hf.congr hkeep []
  have hcall : At (programCode p) (0 + 4 + size (globalsCode [] p 0)) (Emit.code mainCode) :=
    hat.left.right.cast (by simp [startCode])
  have hmark := Reach.mst (c := ⟨globalsCount p + 4, 0, 0, mem1, []⟩) hcall (Machine.Config.frame?_zero _)
  obtain ⟨mem2, hreach2, hm2, -⟩ := (sim (linked_program hload) fuel).call "main" [] m0 v m ⟨globalsCount p, 0⟩ false _
    ⟨globalsCount p + 4, 0, 0, mem1, [.empty, .address 0, .address 0, .address 0, .empty]⟩ [] hmain hcall.tail.head rfl (hf1.congr (.refl _ _ _) _) hm1 rfl
  have hreach := hstart.trans (hreach1.trans (hmark.trans hreach2))
  obtain ⟨s, hhalt, hs⟩ := halts_of_reach hreach hcall.tail.tail
  refine ⟨s, hhalt, hs.top rfl, fun i u hi hu => ?_⟩
  have hcell := hm2.var (.global i) u hi hu
  rw [hs.mem_eq _ (by simp; omega)]
  exact hcell

end MiniC.IntLang
