import MiniC.Proofs.IntLang.Code
import MiniC.Proofs.Machine.Call

/-!
# Variables in frames

The globals of a program lie behind the five cells at the bottom of the store, and the variables of a function
behind the five cells of its frame. `Holds` says that the cells hold what the variables hold; `Keeps` says
which cells the code of a function does not touch: all below its variables, but for cell 0, the result and the
globals.
-/

namespace MiniC.IntLang

open Machine

def Var.cell (mp : Int) : Var → Int
  | .frame i => mp + 5 + i
  | .global i => 5 + i

/-- The numbers of cells for the globals and for the variables of a function. -/
structure Layout where
  globals : Nat
  frame : Nat

/-- The variable is one of the cells. -/
def Var.In (L : Layout) : Var → Prop
  | .frame i => i < L.frame
  | .global i => i < L.globals

structure Holds (L : Layout) (mp : Int) (m : Mem) (mem : Int → Word) : Prop where
  var : ∀ w v, w.In L → m.get w = some v → mem (w.cell mp) = .int v

/-- A cell that code does not change. -/
def Kept (L : Layout) (mp a : Int) : Prop := a < mp + 5 ∧ a ≠ 0 ∧ a ≠ mp ∧ ¬ (5 ≤ a ∧ a < 5 + L.globals)

def Keeps (L : Layout) (mp : Int) (mem mem' : Int → Word) : Prop := ∀ a, Kept L mp a → mem' a = mem a

/-- A description in which the variables have their cells, inside a function or among the globals. -/
structure InFrame (L : Layout) (inside : Bool) (c : Machine.Config) : Prop where
  frame_le : c.mp + 4 + L.frame ≤ c.floor
  globals_le : 4 + L.globals ≤ c.floor
  mp_nonneg : 0 ≤ c.mp
  outside : inside = false → c.mp = 0 ∧ L.frame = 0
  above : inside = true → 5 + L.globals ≤ c.mp
  link : inside = true → c.mem (c.mp + 1) = .address 0

section

variable {L : Layout} {inside : Bool} {c : Machine.Config} {mp a : Int} {m m' : Mem} {mem mem' mem'' : Int → Word}
  {w w' : Var} {v : Int} {env : Env} {x : String} {ws : List Word}

theorem Keeps.refl (L : Layout) (mp : Int) (mem : Int → Word) : Keeps L mp mem mem := fun _ _ => rfl

theorem Keeps.trans (h : Keeps L mp mem mem') (h' : Keeps L mp mem' mem'') : Keeps L mp mem mem'' :=
  fun a ha => (h' a ha).trans (h a ha)

theorem Keeps.update (ha : ¬ Kept L mp a) (w : Word) : Keeps L mp mem (Function.update mem a w) := by
  intro b hb
  rw [Function.update_of_ne]
  rintro rfl
  exact ha hb

theorem not_kept_zero : ¬ Kept L mp 0 := by simp [Kept]

theorem not_kept_cell (h : w.In L) : ¬ Kept L mp (w.cell mp) := by
  cases w <;> simp only [Kept, Var.cell, Var.In] at * <;> omega

theorem InFrame.congr (h : InFrame L inside c) (hk : Keeps L c.mp c.mem mem) (ws : List Word) :
    InFrame L inside { c with mem, stack := ws } where
  frame_le := h.frame_le
  globals_le := h.globals_le
  mp_nonneg := h.mp_nonneg
  outside := h.outside
  above := h.above
  link hi := by
    have := h.above hi
    have hkept : Kept L c.mp (c.mp + 1) := ⟨by omega, by omega, by omega, by omega⟩
    exact (hk _ hkept).trans (h.link hi)

theorem InFrame.inMemory (h : InFrame L inside c) (hw : w.In L) : c.InMemory (w.cell c.mp) := by
  have h1 := h.frame_le
  have h2 := h.globals_le
  have h3 := h.mp_nonneg
  cases w <;> simp only [Machine.Config.InMemory, Var.cell, Var.In] at * <;> omega

theorem InFrame.cell_ne_zero (h : InFrame L inside c) : w.cell c.mp ≠ 0 := by
  have := h.mp_nonneg
  cases w <;> simp only [Var.cell, ne_eq] <;> omega

/-- Variables have different cells. -/
theorem InFrame.cell_inj (h : InFrame L inside c) (hw : w.In L) (hw' : w'.In L) :
    w.cell c.mp = w'.cell c.mp ↔ w = w' := by
  have hsep : L.frame = 0 ∨ 5 + L.globals ≤ c.mp := by
    cases inside with
    | false => exact .inl (h.outside rfl).2
    | true => exact .inr (h.above rfl)
  cases w <;> cases w' <;>
    simp only [Var.cell, Var.In, Var.frame.injEq, Var.global.injEq, reduceCtorEq, iff_false] at * <;> omega

/-- The frame of a variable is found, and with it the cell. -/
theorem InFrame.frame? (h : InFrame L env.inside c) (hx : env.find? x = some w) :
    ∃ b, c.frame? (env.level w) = some b ∧ b + w.offset = w.cell c.mp := by
  cases w with
  | frame i => exact ⟨c.mp, by simp [Env.level, Machine.Config.frame?, Machine.Config.base?], by
      simp only [Var.offset, Var.cell, Emit.frameOffset]; omega⟩
  | global i =>
    refine ⟨0, ?_, by simp only [Var.offset, Var.cell, Emit.frameOffset]; omega⟩
    by_cases hs : env.scopes.isEmpty
    · have := (h.outside (by simp [Env.inside, hs])).1
      simp [Env.level, hs, Machine.Config.frame?, Machine.Config.base?, this]
    · have hin : env.inside = true := by simp [Env.inside, hs]
      have := h.above hin
      have := h.frame_le
      have hle : c.mp + 1 ≤ c.floor := by omega
      simp [Env.level, hs, Machine.Config.frame?, Machine.Config.base?, h.link hin, hle]

theorem Holds.update_zero (h : Holds L c.mp m mem) (hf : InFrame L inside c) (w : Word) :
    Holds L c.mp m (Function.update mem 0 w) := by
  refine ⟨fun w' v hw hv => ?_⟩
  rw [Function.update_of_ne hf.cell_ne_zero]
  exact h.var w' v hw hv

/-- Storing a value in the cell of a variable. -/
theorem Holds.set (h : Holds L c.mp m mem) (hf : InFrame L inside c) (hw : w.In L) (v : Int) :
    Holds L c.mp (m.set w (some v)) (Function.update mem (w.cell c.mp) (.int v)) := by
  refine ⟨fun w' v' hw' hv' => ?_⟩
  by_cases he : w' = w
  · subst he
    cases w' <;> simp_all [Mem.set, Mem.get]
  · rw [Function.update_of_ne (mt (hf.cell_inj hw' hw).1 he)]
    refine h.var w' v' hw' ?_
    cases w <;> cases w' <;> simp_all [Mem.set, Mem.get, Function.update_apply]

theorem Holds.set_none (h : Holds L mp m mem) (w : Var) : Holds L mp (m.set w none) mem := by
  refine ⟨fun w' v' hw' hv' => h.var w' v' hw' ?_⟩
  cases w <;> cases w' <;> simp_all [Mem.set, Mem.get, Function.update_apply]

theorem Holds.clear (h : Holds L mp m mem) (i j : Nat) : Holds L mp (m.clear i j) mem := by
  refine ⟨fun w' v' hw' hv' => h.var w' v' hw' ?_⟩
  cases w' <;> simp_all [Mem.clear, Mem.get]

end

/-! ## Names and cells -/

/-- All names that are bound have cells. -/
structure Env.Ok (env : Env) (L : Layout) : Prop where
  scopes : ∀ scope ∈ env.scopes, ∀ e ∈ scope, e.2 < L.frame
  globals : ∀ e ∈ env.globals, e.2 < L.globals

section

variable {env : Env} {L : Layout} {x : String} {w : Var}

theorem mem_of_lookup {l : List (String × Nat)} {i : Nat} (h : l.lookup x = some i) : (x, i) ∈ l := by
  induction l with
  | nil => simp at h
  | cons e l ih =>
    rw [List.lookup_cons] at h
    split at h
    next he =>
      obtain rfl := Option.some.inj h
      simp only [beq_iff_eq] at he
      exact he ▸ .head _
    next => exact .tail _ (ih h)

theorem Env.Ok.find? (h : env.Ok L) (hx : env.find? x = some w) : w.In L := by
  simp only [Env.find?] at hx
  split at hx
  next i hi =>
    obtain rfl := Option.some.inj hx
    obtain ⟨scope, hs, hl⟩ := List.exists_of_findSome?_eq_some hi
    exact h.scopes scope hs _ (mem_of_lookup hl)
  next =>
    obtain ⟨i, hi, rfl⟩ := Option.map_eq_some_iff.1 hx
    exact h.globals _ (mem_of_lookup hi)

theorem Env.Ok.opened (h : env.Ok L) : env.opened.Ok L :=
  ⟨by simpa [Env.opened] using h.scopes, h.globals⟩

theorem Env.Ok.congr_next (h : env.Ok L) (n : Nat) : ({ env with next := n } : Env).Ok L := ⟨h.scopes, h.globals⟩

theorem Env.Ok.declare (h : env.Ok L) (hin : env.inside = true) (hn : env.next < L.frame) (x : String) :
    (env.declare x).Ok L := by
  obtain ⟨scopes, globals, next⟩ := env
  cases scopes with
  | nil => simp [Env.inside] at hin
  | cons scope rest =>
    refine ⟨?_, h.globals⟩
    have hs := h.scopes
    simp only [List.mem_cons, forall_eq_or_imp] at hs
    simp only [Env.declare, List.mem_cons, forall_eq_or_imp]
    exact ⟨⟨hn, hs.1⟩, hs.2⟩

theorem Env.Ok.bind (h : env.Ok L) (hin : env.inside = true) (s : Stmt) (hn : (s.bind env).next ≤ L.frame) :
    (s.bind env).Ok L := by
  induction s generalizing env with
  | seq a b iha ihb =>
    exact ihb (iha h hin (Nat.le_trans (b.next_le_bind _) hn)) (by simpa using hin) hn
  | decl x init => 
    simp only [Stmt.bind, Env.next_declare] at hn
    exact h.declare hin (by omega) x
  | ifThen c a iha => exact iha h hin hn
  | ifElse c a b iha ihb =>
    exact ihb (iha h hin (Nat.le_trans (b.next_le_bind _) hn)) (by simpa using hin) hn
  | whileLoop c s ih => exact ih h hin hn
  | block s | forLoop => exact h.congr_next _
  | _ => exact h

end

end MiniC.IntLang
