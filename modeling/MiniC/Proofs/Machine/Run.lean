import Mathlib.Logic.Relation
import MiniC.Proofs.Machine.Basic

/-!
# Runs of the stack machine

`Steps code s s'`: `s` leads to `s'` in zero or more steps. `At code k ls` says that the lines `ls` stand in
`code` from instruction `k` on.

A `Config` describes a state by the cells up to a floor, as a memory, and the words above it, as a stack.
`act` is what an instruction does to such a description; `Reach code k c k' c'` says that every state that is
shown by `c` at instruction `k` leads to one that is shown by `c'` at instruction `k'`, and `Prints` says also what
is written on the way.
-/

namespace MiniC.Machine

open Option (map_eq_some_iff bind_eq_some_iff)

variable {c : Config} {cell : Cell} {w v w' : Word} {a : Int} {n : Nat}

abbrev Steps (code : List Line) : State → State → Prop :=
  Relation.ReflTransGen fun s s' => step code s = .next s'

def Halts (code : List Line) (s s' : State) : Prop := ∃ t, Steps code s t ∧ step code t = .halt s'

/-- A run that ends in an error. -/
def Faults (code : List Line) (s : State) : Prop := ∃ t, Steps code s t ∧ step code t = .fault

/-! ## Places in code -/

section Place

variable {code ls ls' : List Line} {k : Nat} {l : Label} {i : Instr}

@[simp] theorem instrs_nil : instrs [] = [] := rfl
@[simp] theorem instrs_instr : instrs (.instr i :: ls) = i :: instrs ls := rfl
@[simp] theorem instrs_label : instrs (.label l :: ls) = instrs ls := rfl
@[simp] theorem instrs_blank : instrs (.blank :: ls) = instrs ls := rfl

@[simp] theorem labels_nil : labels [] = [] := rfl
@[simp] theorem labels_instr : labels (.instr i :: ls) = labels ls := rfl
@[simp] theorem labels_label : labels (.label l :: ls) = l :: labels ls := rfl
@[simp] theorem labels_blank : labels (.blank :: ls) = labels ls := rfl

@[simp] theorem instrs_append (ls ls' : List Line) : instrs (ls ++ ls') = instrs ls ++ instrs ls' := by
  induction ls with
  | nil => rfl
  | cons line rest ih => cases line <;> simp [ih]

@[simp] theorem labels_append (ls ls' : List Line) : labels (ls ++ ls') = labels ls ++ labels ls' := by
  induction ls with
  | nil => rfl
  | cons line rest ih => cases line <;> simp [ih]

@[simp] theorem instrs_map_instr (is : List Instr) : instrs (is.map .instr) = is := by
  induction is with
  | nil => rfl
  | cons i is ih => simp [ih]

@[simp] theorem labels_map_instr (is : List Instr) : labels (is.map .instr) = [] := by
  induction is with
  | nil => rfl
  | cons i is ih => simp [ih]

/-- The number of instructions. -/
def size (ls : List Line) : Nat := (instrs ls).length

@[simp] theorem size_nil : size [] = 0 := rfl
@[simp] theorem size_instr : size (.instr i :: ls) = size ls + 1 := rfl
@[simp] theorem size_label : size (.label l :: ls) = size ls := rfl
@[simp] theorem size_blank : size (.blank :: ls) = size ls := rfl
@[simp] theorem size_append (ls ls' : List Line) : size (ls ++ ls') = size ls + size ls' := by simp [size]
@[simp] theorem size_map_instr (is : List Instr) : size (is.map .instr) = is.length := by simp [size]

/-- Lines stand in code, from an instruction on. -/
def At (code : List Line) (k : Nat) (ls : List Line) : Prop :=
  ∃ before after, code = before ++ ls ++ after ∧ size before = k

theorem At.left (h : At code k (ls ++ ls')) : At code k ls := by
  obtain ⟨before, after, rfl, rfl⟩ := h
  exact ⟨before, ls' ++ after, by simp, rfl⟩

theorem At.right (h : At code k (ls ++ ls')) : At code (k + size ls) ls' := by
  obtain ⟨before, after, rfl, rfl⟩ := h
  exact ⟨before ++ ls, after, by simp, by simp⟩

theorem At.cast {k' : Nat} (h : At code k ls) (he : k = k') : At code k' ls := he ▸ h

theorem At.head {line : Line} (h : At code k (line :: ls)) : At code k [line] :=
  At.left (show At code k ([line] ++ ls) from h)

theorem At.tail {line : Line} (h : At code k (line :: ls)) : At code (k + size [line]) ls :=
  At.right (show At code k ([line] ++ ls) from h)

theorem At.fetch (h : At code k (.instr i :: ls)) : (instrs code)[k]? = some i := by
  obtain ⟨before, after, rfl, rfl⟩ := h
  simp [size]

theorem targetFrom_append (l : Label) (k : Nat) (ls ls' : List Line) (h : l ∉ labels ls) :
    targetFrom l k (ls ++ ls') = targetFrom l (k + size ls) ls' := by
  induction ls generalizing k with
  | nil => rfl
  | cons line rest ih =>
    cases line with
    | instr i => simpa [targetFrom, Nat.add_assoc, Nat.add_comm 1] using ih (k + 1) (by simpa using h)
    | blank => simpa [targetFrom] using ih k (by simpa using h)
    | label l' =>
      simp only [labels_label, List.mem_cons, not_or] at h
      simpa [targetFrom, Ne.symm h.1] using ih k h.2

/-- In code that can be loaded a label stands for the place where it is. -/
theorem At.target (hc : Loads code) (h : At code k (.label l :: ls)) : target code l = some k := by
  obtain ⟨before, after, rfl, rfl⟩ := h
  have hnot : l ∉ labels before := by
    simp only [Loads, labels_append, labels_label, List.append_assoc, List.nodup_append] at hc
    exact fun hl => hc.2.2 l hl l (by simp) rfl
  rw [Machine.target, List.append_assoc, targetFrom_append l 0 before _ hnot]
  simp [targetFrom]

end Place

/-! ## Descriptions of states -/

/-- The cells up to a floor as a memory, and the words above it as a stack, topmost first. -/
structure Config where
  floor : Int
  mp : Int
  ep : Int
  mem : Int → Word
  stack : List Word

/-- A state is as it is described. -/
structure Config.Shows (c : Config) (s : State) : Prop where
  floor_ge : -1 ≤ c.floor
  mp_eq : s.mp = c.mp
  ep_eq : s.ep = c.ep
  sp_eq : s.sp = c.floor + c.stack.length
  mem_eq : ∀ a, a ≤ c.floor → s.store a = c.mem a
  stack_eq : ∀ (i : Nat) w, c.stack[i]? = some w → s.store (s.sp - i) = w

namespace Config

def base? (c : Config) : Nat → Int → Option Int
  | 0, a => some a
  | level + 1, a =>
    if a + 1 ≤ c.floor then
      match c.mem (a + 1) with
      | .address b => c.base? level b
      | _ => none
    else none

def frame? (c : Config) (level : Int) : Option Int := if level < 0 then none else c.base? level.toNat c.mp

def InMemory (c : Config) (a : Int) : Prop := 0 ≤ a ∧ a ≤ c.floor

instance (c : Config) (a : Int) : Decidable (c.InMemory a) := inferInstanceAs (Decidable (_ ∧ _))

def pushed (c : Config) (w : Word) : Config := { c with stack := w :: c.stack }

/-- Puts a word in the place of the topmost one. -/
def mapTop? (c : Config) (f : Word → Option Word) : Option Config :=
  match c.stack with
  | w :: ws => (f w).map fun w => { c with stack := w :: ws }
  | [] => none

/-- Puts a word in the place of the topmost two. -/
def mapTwo? (c : Config) (f : Word → Word → Option Word) : Option Config :=
  match c.stack with
  | r :: l :: ws => (f l r).map fun w => { c with stack := w :: ws }
  | _ => none

theorem mapTop?_eq_some {c' : Config} {f : Word → Option Word} :
    c.mapTop? f = some c' ↔ ∃ w ws v, c.stack = w :: ws ∧ f w = some v ∧ { c with stack := v :: ws } = c' := by
  unfold mapTop?
  split
  · simp only [map_eq_some_iff]
    grind
  · simp_all

theorem mapTwo?_eq_some {c' : Config} {f : Word → Word → Option Word} :
    c.mapTwo? f = some c' ↔
      ∃ l r ws v, c.stack = r :: l :: ws ∧ f l r = some v ∧ { c with stack := v :: ws } = c' := by
  unfold mapTwo?
  split
  · simp only [map_eq_some_iff]
    grind
  · simp_all

def ofType (cell : Cell) (w : Word) : Option Word := if w.cell? = some cell then some w else none

def load? (c : Config) (cell : Cell) (a : Int) : Option Word :=
  if c.InMemory a then ofType cell (c.mem a) else none

theorem ofType_eq_some : ofType cell w = some v ↔ w.cell? = some cell ∧ w = v := by
  simp [ofType]

theorem load?_eq_some : c.load? cell a = some w ↔ c.InMemory a ∧ (c.mem a).cell? = some cell ∧ c.mem a = w := by
  simp [load?, ofType_eq_some]

def stored (c : Config) (a : Int) (w : Word) (ws : List Word) : Config :=
  { c with mem := Function.update c.mem a w, stack := ws }

/-- What an instruction that does not jump does. -/
def act (c : Config) : Instr → Option Config
  | .ldc cell k => (constant? cell k).map c.pushed
  | .lda level offset => (level.bind c.frame?).map fun a => c.pushed (.address (a + offset))
  | .lod cell level offset =>
    (level.bind c.frame?).bind fun a => (c.load? cell (a + offset)).map c.pushed
  | .str cell level offset =>
    (c.frame? level).bind fun a =>
      match c.stack with
      | w :: ws =>
        if w.cell? = some cell ∧ c.InMemory (a + offset) then some (c.stored (a + offset) w ws) else none
      | [] => none
  | .sto cell =>
    match c.stack with
    | w :: .address a :: ws => if w.cell? = some cell ∧ c.InMemory a then some (c.stored a w ws) else none
    | _ => none
  | .ind cell => c.mapTop? fun w =>
    match w with
    | .address a => c.load? cell a
    | _ => none
  | .dpl cell =>
    match c.stack with
    | w :: ws => (ofType cell w).map fun w => { c with stack := w :: w :: ws }
    | [] => none
  | .conv source target => c.mapTop? fun w =>
    (ofType source w).bind fun w => w.ordinal?.bind (Word.ofOrdinal? target)
  | .arith op cell => c.mapTwo? (arithWord? op cell)
  | .neg cell => c.mapTop? fun w => (ofType cell w).bind fun w => w.ordinal?.bind (Word.ofOrdinal? cell ∘ (- ·))
  | .logic op => c.mapTwo? fun l r =>
    match l, r with
    | .bool a, .bool b => some (.bool (op.holds a b))
    | _, _ => none
  | .not => c.mapTop? fun w =>
    match w with
    | .bool b => some (.bool !b)
    | _ => none
  | .compare op cell => c.mapTwo? fun l r =>
    (ofType cell l).bind fun l => (ofType cell r).bind fun r =>
      l.ordinal?.bind fun a => r.ordinal?.bind fun b => some (.bool (op.holds a b))
  | .inc .int n => c.mapTop? fun w =>
    match w with
    | .int a => some (.int (a + n))
    | _ => none
  | .inc .address n => c.mapTop? fun w =>
    match w with
    | .address a => some (.address (a + n))
    | _ => none
  | .dec .int n => c.mapTop? fun w =>
    match w with
    | .int a => some (.int (a - n))
    | _ => none
  | _ => none

end Config

/-! ## Descriptions and steps -/

section Shows

variable {c c' : Config} {s : State} {w : Word} {ws : List Word}

theorem Config.Shows.top (h : c.Shows s) (hs : c.stack = w :: ws) : s.top = w := by
  simpa [State.top] using h.stack_eq 0 w (by simp [hs])

theorem Config.Shows.second (h : c.Shows s) (hs : c.stack = w' :: w :: ws) : s.store (s.sp - 1) = w := by
  simpa using h.stack_eq 1 w (by simp [hs])

theorem Config.Shows.base? (h : c.Shows s) (n : Nat) (a : Int) {b : Int} (hb : c.base? n a = some b) :
    Machine.base? s n a = some b := by
  induction n generalizing a with
  | zero => exact hb
  | succ n ih =>
    simp only [Config.base?] at hb
    split at hb
    next hle =>
      have hsp : ¬ s.sp < a + 1 := by have := h.sp_eq; omega
      rw [Machine.base?, if_neg hsp, h.mem_eq _ hle]
      split at hb
      next heq => rw [heq]; exact ih _ hb
      next => cases hb
    next => cases hb

theorem Config.Shows.frame? (h : c.Shows s) {level b : Int} (hb : c.frame? level = some b) :
    Machine.frame? s level = some b := by
  simp only [Config.frame?] at hb
  simp only [Machine.frame?]
  split at hb
  · cases hb
  next hl => rw [if_neg hl, h.mp_eq]; exact h.base? _ _ hb

theorem Config.Shows.load? (h : c.Shows s) (hl : c.load? cell a = some w) : Machine.load? s cell a = some w := by
  obtain ⟨hin, hcell, rfl⟩ := Config.load?_eq_some.1 hl
  have hsp := h.sp_eq
  rw [Machine.load?, h.mem_eq _ hin.2, if_pos ⟨hin.1, by have := hin.2; omega, hcell⟩]

/-- A word in the place of the topmost ones. -/
theorem Config.Shows.replace (h : c.Shows s) (hn : n ≤ c.stack.length) (w : Word) :
    ({ c with stack := w :: c.stack.drop n } : Config).Shows (s.replace n w) := by
  have hsp := h.sp_eq
  refine ⟨h.floor_ge, h.mp_eq, h.ep_eq, ?_, ?_, ?_⟩
  · simp only [State.replace, List.length_cons, List.length_drop]; omega
  · intro a ha
    have hne : a ≠ s.sp - n + 1 := by have ha' : a ≤ c.floor := ha; omega
    simpa [State.replace, Function.update_of_ne hne] using h.mem_eq a ha
  · intro i v hi
    cases i with
    | zero =>
      simp only [List.getElem?_cons_zero, Option.some.injEq] at hi
      simp [State.replace, hi]
    | succ i =>
      simp only [List.getElem?_cons_succ, List.getElem?_drop] at hi
      have := h.stack_eq _ _ hi
      simp only [State.replace]
      rw [Function.update_of_ne (by omega), ← this]
      congr 1; push_cast; omega

theorem Config.Shows.push (h : c.Shows s) (w : Word) : (c.pushed w).Shows (s.push w) := by
  simpa [State.push, Config.pushed] using h.replace (n := 0) (by simp) w

/-- A word in a cell of the memory, with words taken from the stack. -/
theorem Config.Shows.storeAt (h : c.Shows s) (hn : n ≤ c.stack.length) (ha : a ≤ c.floor) (w : Word) :
    (c.stored a w (c.stack.drop n)).Shows (s.storeAt a w n) := by
  have hsp := h.sp_eq
  refine ⟨h.floor_ge, h.mp_eq, h.ep_eq, ?_, ?_, ?_⟩
  · simp only [State.storeAt, Config.stored, List.length_drop]; omega
  · intro b hb
    by_cases hab : b = a
    · simp [State.storeAt, Config.stored, hab]
    · simpa [State.storeAt, Config.stored, Function.update_of_ne hab] using h.mem_eq b hb
  · intro i v hi
    simp only [Config.stored, List.getElem?_drop] at hi
    have hlt := (List.getElem?_eq_some_iff.1 hi).1
    have := h.stack_eq _ _ hi
    simp only [State.storeAt]
    rw [Function.update_of_ne (by omega), ← this]
    congr 1; push_cast; omega

theorem Config.Shows.pop (h : c.Shows s) (hn : n ≤ c.stack.length) :
    ({ c with stack := c.stack.drop n } : Config).Shows (s.pop n) := by
  have hsp := h.sp_eq
  refine ⟨h.floor_ge, h.mp_eq, h.ep_eq, ?_, h.mem_eq, ?_⟩
  · simp only [State.pop, List.length_drop]; omega
  · intro i v hi
    simp only [List.getElem?_drop] at hi
    rw [← h.stack_eq _ _ hi]
    simp only [State.pop]
    congr 1; push_cast; omega

theorem Config.Shows.mapTop (h : c.Shows s) (hs : c.stack = w :: ws) :
    ({ c with stack := v :: ws } : Config).Shows (s.replace 1 v) := by
  simpa [hs] using h.replace (n := 1) (by simp [hs]) v

theorem Config.Shows.mapTwo (h : c.Shows s) (hs : c.stack = w' :: w :: ws) :
    ({ c with stack := v :: ws } : Config).Shows (s.replace 2 v) := by
  simpa [hs] using h.replace (n := 2) (by simp [hs]) v

theorem Config.Shows.one_le_sp (h : c.Shows s) (hs : c.stack = w' :: w :: ws) : 1 ≤ s.sp := by
  have hsp := h.sp_eq
  have hfloor := h.floor_ge
  simp only [hs, List.length_cons] at hsp
  omega

/-- What an instruction does to a description it does to the state. -/
theorem Config.Shows.execute (h : c.Shows s) (targets : Label → Option Nat) {i : Instr}
    (hact : c.act i = some c') :
    ∃ s', Machine.execute targets s i = some s' ∧ s'.pc = s.pc + 1 ∧ c'.Shows s' ∧ s'.output = s.output := by
  cases i with
  | ldc cell k =>
    obtain ⟨w, hw, rfl⟩ := map_eq_some_iff.1 hact
    exact ⟨s.push w, by simp [Machine.execute, hw], rfl, h.push w, rfl⟩
  | lda level offset =>
    obtain ⟨a, ha, rfl⟩ := map_eq_some_iff.1 hact
    obtain ⟨l, rfl, ha⟩ := bind_eq_some_iff.1 ha
    exact ⟨_, by simp [Machine.execute, h.frame? ha], rfl, h.push _, rfl⟩
  | lod cell level offset =>
    obtain ⟨a, ha, hload⟩ := bind_eq_some_iff.1 hact
    obtain ⟨w, hw, rfl⟩ := map_eq_some_iff.1 hload
    obtain ⟨l, rfl, ha⟩ := bind_eq_some_iff.1 ha
    exact ⟨_, by simp [Machine.execute, h.frame? ha, h.load? hw], rfl, h.push _, rfl⟩
  | str cell level offset =>
    obtain ⟨a, ha, hact⟩ := bind_eq_some_iff.1 hact
    split at hact
    next w ws hs =>
      simp only [Option.ite_none_right_eq_some, Option.some.injEq] at hact
      obtain ⟨⟨hcell, hin⟩, rfl⟩ := hact
      have hsp := h.sp_eq
      refine ⟨s.storeAt (a + offset) w 1, ?_, rfl, ?_, rfl⟩
      · simp [Machine.execute, h.frame? ha, h.top hs, hcell, hin.1]
        have := hin.2
        omega
      · simpa [hs] using h.storeAt (n := 1) (by simp [hs]) hin.2 w
    next => cases hact
  | sto cell =>
    simp only [Config.act] at hact
    split at hact
    next w a ws hs =>
      simp only [Option.ite_none_right_eq_some, Option.some.injEq] at hact
      obtain ⟨⟨hcell, hin⟩, rfl⟩ := hact
      have hsp := h.sp_eq
      have hone := h.one_le_sp hs
      simp only [hs, List.length_cons] at hsp
      refine ⟨s.storeAt a w 2, ?_, rfl, ?_, rfl⟩
      · simp [Machine.execute, h.second hs, h.top hs, hcell, hin.1, hone]
        have := hin.2
        omega
      · simpa [hs] using h.storeAt (n := 2) (by simp [hs]) hin.2 w
    next => cases hact
  | ind cell =>
    obtain ⟨w, ws, v, hs, hv, rfl⟩ := Config.mapTop?_eq_some.1 hact
    split at hv
    next a => exact ⟨_, by simp [Machine.execute, h.top hs, h.load? hv], rfl, h.mapTop hs, rfl⟩
    next => cases hv
  | dpl cell =>
    simp only [Config.act] at hact
    split at hact
    next w ws hs =>
      obtain ⟨v, hv, rfl⟩ := map_eq_some_iff.1 hact
      obtain ⟨hcell, rfl⟩ := Config.ofType_eq_some.1 hv
      exact ⟨s.push w, by simp [Machine.execute, h.top hs, hcell], rfl,
        by simpa [Config.pushed, hs] using h.push w, rfl⟩
    next => cases hact
  | conv source target =>
    obtain ⟨w, ws, v, hs, hv, rfl⟩ := Config.mapTop?_eq_some.1 hact
    obtain ⟨_, hw, hv⟩ := bind_eq_some_iff.1 hv
    obtain ⟨hcell, rfl⟩ := Config.ofType_eq_some.1 hw
    obtain ⟨n, hn, hv⟩ := bind_eq_some_iff.1 hv
    exact ⟨_, by simp [Machine.execute, h.top hs, hcell, hn, hv], rfl, h.mapTop hs, rfl⟩
  | arith op cell =>
    obtain ⟨l, r, ws, v, hs, hv, rfl⟩ := Config.mapTwo?_eq_some.1 hact
    exact ⟨_, by simp [Machine.execute, h.top hs, h.second hs, hv, h.one_le_sp hs], rfl, h.mapTwo hs, rfl⟩
  | neg cell =>
    obtain ⟨w, ws, v, hs, hv, rfl⟩ := Config.mapTop?_eq_some.1 hact
    obtain ⟨_, hw, hv⟩ := bind_eq_some_iff.1 hv
    obtain ⟨hcell, rfl⟩ := Config.ofType_eq_some.1 hw
    obtain ⟨n, hn, hv⟩ := bind_eq_some_iff.1 hv
    exact ⟨_, by simpa [Machine.execute, h.top hs, hcell, hn] using ⟨v, hv, rfl⟩, rfl, h.mapTop hs, rfl⟩
  | logic op =>
    obtain ⟨l, r, ws, v, hs, hv, rfl⟩ := Config.mapTwo?_eq_some.1 hact
    split at hv
    next =>
      cases hv
      exact ⟨_, by simp [Machine.execute, h.top hs, h.second hs, h.one_le_sp hs], rfl, h.mapTwo hs, rfl⟩
    next => cases hv
  | not =>
    obtain ⟨w, ws, v, hs, hv, rfl⟩ := Config.mapTop?_eq_some.1 hact
    split at hv
    next =>
      cases hv
      exact ⟨_, by simp [Machine.execute, h.top hs], rfl, h.mapTop hs, rfl⟩
    next => cases hv
  | compare op cell =>
    obtain ⟨l, r, ws, v, hs, hv, rfl⟩ := Config.mapTwo?_eq_some.1 hact
    simp only [bind_eq_some_iff, Config.ofType_eq_some] at hv
    obtain ⟨_, ⟨hl, rfl⟩, _, ⟨hr, rfl⟩, a, ha, b, hb, hv⟩ := hv
    obtain rfl := Option.some.inj hv
    exact ⟨_, by simp [Machine.execute, h.top hs, h.second hs, hl, hr, ha, hb, h.one_le_sp hs], rfl,
      h.mapTwo hs, rfl⟩
  | inc cell n =>
    cases cell with
    | int | address =>
      obtain ⟨w, ws, v, hs, hv, rfl⟩ := Config.mapTop?_eq_some.1 hact
      split at hv
      next =>
        cases hv
        exact ⟨_, by simp [Machine.execute, shift?, h.top hs, Word.cell?, Word.ordinal?, Word.ofOrdinal?], rfl,
          h.mapTop hs, rfl⟩
      next => cases hv
    | _ => cases hact
  | dec cell n =>
    cases cell with
    | int =>
      obtain ⟨w, ws, v, hs, hv, rfl⟩ := Config.mapTop?_eq_some.1 hact
      split at hv
      next =>
        cases hv
        exact ⟨_, by simp [Machine.execute, shift?, h.top hs, Word.cell?, Word.ordinal?, Word.ofOrdinal?,
          Int.sub_eq_add_neg], rfl, h.mapTop hs, rfl⟩
      next => cases hv
    | _ => cases hact
  | _ => cases hact

end Shows

@[simp] theorem Config.frame?_zero (c : Config) : c.frame? 0 = some c.mp := by simp [Config.frame?, Config.base?]

attribute [simp] Word.cell? Word.ordinal? Word.ofOrdinal? constant? arithWord? arith? Config.InMemory
  Config.ofType Config.load? Config.pushed Config.stored Config.mapTop? Config.mapTwo? Config.act

/-! ## Runs between descriptions -/

/-- Every state that one description shows at an instruction leads to one that the other shows at another. -/
def Reach (code : List Line) (k : Nat) (c : Config) (k' : Nat) (c' : Config) : Prop :=
  ∀ s, s.pc = k → c.Shows s → ∃ s', Steps code s s' ∧ s'.pc = k' ∧ c'.Shows s'

/-- The same with the words that are written on the way, in order. -/
def Prints (code : List Line) (k : Nat) (c : Config) (out : List Word) (k' : Nat) (c' : Config) : Prop :=
  ∀ s, s.pc = k → c.Shows s → ∃ s', Steps code s s' ∧ s'.pc = k' ∧ c'.Shows s' ∧ s'.output = out.reverse ++ s.output

/-- What a list of instructions does that do not jump. -/
@[simp] def Config.acts (c : Config) : List Instr → Option Config
  | [] => some c
  | i :: is => (c.act i).bind fun c => c.acts is

section Prints

variable {code ls : List Line} {k k1 k2 : Nat} {c c1 c2 : Config} {i : Instr} {l : Label} {out out' ws : List Word}

theorem Prints.reach (h : Prints code k c out k1 c1) : Reach code k c k1 c1 := by
  intro s hk hs
  obtain ⟨s', hsteps, hk', hs', -⟩ := h s hk hs
  exact ⟨s', hsteps, hk', hs'⟩

theorem Prints.refl (code : List Line) (k : Nat) (c : Config) : Prints code k c [] k c :=
  fun s hk hs => ⟨s, .refl, hk, hs, rfl⟩

theorem Prints.trans (h1 : Prints code k c out k1 c1) (h2 : Prints code k1 c1 out' k2 c2) :
    Prints code k c (out ++ out') k2 c2 := by
  intro s hk hs
  obtain ⟨s1, hsteps1, hk1, hs1, hout1⟩ := h1 s hk hs
  obtain ⟨s2, hsteps2, hk2, hs2, hout2⟩ := h2 s1 hk1 hs1
  exact ⟨s2, hsteps1.trans hsteps2, hk2, hs2, by simp [hout2, hout1]⟩

theorem At.step {s s' : State} (h : At code k (.instr i :: ls)) (hk : s.pc = k)
    (he : execute (Machine.target code) s i = some s') :
    Machine.step code s = .next s' := by
  have hne : i ≠ .hlt := by rintro rfl; simp [execute] at he
  unfold Machine.step
  rw [hk, h.fetch]
  cases i <;> first | exact absurd rfl hne | simp only [he, Outcome.ofOption]

/-- One instruction that leads from each shown state to a shown state. -/
theorem Prints.single (h : At code k (.instr i :: ls))
    (hexec : ∀ s, s.pc = k → c.Shows s →
      ∃ s', execute (target code) s i = some s' ∧ s'.pc = k1 ∧ c1.Shows s' ∧ s'.output = out.reverse ++ s.output) :
    Prints code k c out k1 c1 := by
  intro s hk hs
  obtain ⟨s', he, hk', hs'⟩ := hexec s hk hs
  exact ⟨s', .single (h.step hk he), hk', hs'⟩

theorem Prints.act (h : At code k (.instr i :: ls)) (hact : c.act i = some c1) : Prints code k c [] (k + 1) c1 := by
  refine .single h fun s hk hs => ?_
  obtain ⟨s', he, hk', hs'⟩ := hs.execute (target code) hact
  exact ⟨s', he, by rw [hk', hk], hs'⟩

theorem Prints.ujp (h : At code k (.instr (.ujp l) :: ls)) (hl : target code l = some k1) :
    Prints code k c [] k1 c :=
  .single h fun s _ hs => ⟨{ s with pc := k1 }, by simp [execute, jump?, hl], rfl,
    ⟨hs.floor_ge, hs.mp_eq, hs.ep_eq, hs.sp_eq, hs.mem_eq, hs.stack_eq⟩, rfl⟩

theorem Prints.fjp_true (h : At code k (.instr (.fjp l) :: ls)) (hw : c.stack = .bool true :: ws) :
    Prints code k c [] (k + 1) { c with stack := ws } :=
  .single h fun s hk hs => ⟨s.pop 1, by simp [execute, hs.top hw], by simp [State.pop, hk],
    by simpa [hw] using hs.pop (n := 1) (by simp [hw]), rfl⟩

theorem Prints.fjp_false (h : At code k (.instr (.fjp l) :: ls)) (hl : target code l = some k1)
    (hw : c.stack = .bool false :: ws) : Prints code k c [] k1 { c with stack := ws } :=
  .single h fun s _ hs => by
    have hp := hs.pop (n := 1) (by simp [hw])
    simp only [hw, List.drop_succ_cons, List.drop_zero] at hp
    exact ⟨{ s.pop 1 with pc := k1 }, by simp [execute, jump?, hs.top hw, hl], rfl,
      ⟨hp.floor_ge, hp.mp_eq, hp.ep_eq, hp.sp_eq, hp.mem_eq, hp.stack_eq⟩, rfl⟩

/-- The word on top is written. -/
theorem Prints.output (h : At code k (.instr (.output cell) :: ls)) (hw : c.stack = w :: ws)
    (hcell : w.cell? = some cell) : Prints code k c [w] (k + 1) { c with stack := ws } :=
  .single h fun s hk hs => by
    have hp := hs.pop (n := 1) (by simp [hw])
    simp only [hw, List.drop_succ_cons, List.drop_zero] at hp
    exact ⟨{ s with output := s.top :: s.output }.pop 1, by rw [execute, hs.top hw, if_pos hcell], by simp [State.pop, hk],
      ⟨hp.floor_ge, hp.mp_eq, hp.ep_eq, hp.sp_eq, hp.mem_eq, hp.stack_eq⟩, by simp [State.pop, hs.top hw]⟩

end Prints

section Reach

variable {code ls : List Line} {k k1 k2 : Nat} {c c1 c2 : Config} {i : Instr} {l : Label} {ws : List Word}

theorem Reach.refl (code : List Line) (k : Nat) (c : Config) : Reach code k c k c := (Prints.refl code k c).reach

theorem Reach.trans (h1 : Reach code k c k1 c1) (h2 : Reach code k1 c1 k2 c2) : Reach code k c k2 c2 := by
  intro s hk hs
  obtain ⟨s1, hsteps1, hk1, hs1⟩ := h1 s hk hs
  obtain ⟨s2, hsteps2, hk2, hs2⟩ := h2 s1 hk1 hs1
  exact ⟨s2, hsteps1.trans hsteps2, hk2, hs2⟩

theorem Reach.single (h : At code k (.instr i :: ls))
    (hexec : ∀ s, s.pc = k → c.Shows s →
      ∃ s', execute (target code) s i = some s' ∧ s'.pc = k1 ∧ c1.Shows s') : Reach code k c k1 c1 := by
  intro s hk hs
  obtain ⟨s', he, hk', hs'⟩ := hexec s hk hs
  exact ⟨s', .single (h.step hk he), hk', hs'⟩

theorem Reach.act (h : At code k (.instr i :: ls)) (hact : c.act i = some c1) : Reach code k c (k + 1) c1 :=
  (Prints.act h hact).reach

theorem Reach.acts {is : List Instr} (h : At code k (is.map .instr)) (hacts : c.acts is = some c1) :
    Reach code k c (k + is.length) c1 := by
  induction is generalizing k c with
  | nil => obtain rfl := Option.some.inj hacts; exact .refl _ _ _
  | cons i is ih =>
    obtain ⟨c', hact, hacts⟩ := bind_eq_some_iff.1 hacts
    have := (Reach.act h hact).trans (ih h.tail hacts)
    simpa [Nat.add_assoc, Nat.add_comm 1] using this

theorem Reach.ujp (h : At code k (.instr (.ujp l) :: ls)) (hl : target code l = some k1) : Reach code k c k1 c :=
  (Prints.ujp h hl).reach

theorem Reach.fjp_true (h : At code k (.instr (.fjp l) :: ls)) (hw : c.stack = .bool true :: ws) :
    Reach code k c (k + 1) { c with stack := ws } := (Prints.fjp_true h hw).reach

theorem Reach.fjp_false (h : At code k (.instr (.fjp l) :: ls)) (hl : target code l = some k1)
    (hw : c.stack = .bool false :: ws) : Reach code k c k1 { c with stack := ws } := (Prints.fjp_false h hl hw).reach

/-- A number in its bounds stays on the stack. -/
theorem Reach.chk {low high n : Int} (h : At code k (.instr (.chk low high) :: ls)) (hw : c.stack = .int n :: ws)
    (hlow : low ≤ n) (hhigh : n ≤ high) : Reach code k c (k + 1) c :=
  .single h fun s hk hs => ⟨s.pop 0, by simp [execute, hs.top hw, hlow, hhigh], by simp [State.pop, hk],
    by simpa using hs.pop (n := 0) (by simp)⟩

/-- The address of the element with a number, from that of the first one. -/
theorem Reach.ixa {size n a : Int} (h : At code k (.instr (.ixa size) :: ls)) (hw : c.stack = .int n :: .address a :: ws) :
    Reach code k c (k + 1) { c with stack := .address (a + n * size) :: ws } :=
  .single h fun s hk hs => ⟨s.replace 2 (.address (a + n * size)), by simp [execute, hs.top hw, hs.second hw],
    by simp [State.replace, hk], hs.mapTwo hw⟩

end Reach

end MiniC.Machine
