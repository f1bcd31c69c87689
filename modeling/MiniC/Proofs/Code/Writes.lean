import MiniC.Proofs.Code.Emits

/-!
# What code makers write

`Writes F m` says of every run of a code maker that comes to its end: the lines that it adds meet the condition `F`,
which also sees the number of labels before and after them. The rules follow the way in which code makers are put
together; a condition that is kept by putting lines one behind the other is kept by all of them.
-/

namespace MiniC

variable {α β : Type}

def Writes (F : Nat → List Line → Nat → Prop) (m : EmitM α) : Prop :=
  ∀ s a s', Runs m s a s' → ∃ ls, s'.code.toList = s.code.toList ++ ls ∧ F s.labels ls s'.labels

/-- A code maker that only looks something up, or moves about in the symbol table. -/
def Silent (m : EmitM α) : Prop := ∀ s a s', Runs m s a s' → s'.code = s.code ∧ s'.labels = s.labels

section

variable {F G H : Nat → List Line → Nat → Prop} {m : EmitM α} {f : α → EmitM β}

theorem Writes.mono (h : Writes F m) (hFG : ∀ n ls n', F n ls n' → G n ls n') : Writes G m := by
  intro s a s' hr
  obtain ⟨ls, hls, hF⟩ := h s a s' hr
  exact ⟨ls, hls, hFG _ _ _ hF⟩

theorem Writes.bind (h : Writes F m) (h' : ∀ a, Writes G (f a))
    (hseq : ∀ n ls n1 ls' n', F n ls n1 → G n1 ls' n' → H n (ls ++ ls') n') : Writes H (m >>= f) := by
  intro s b s' hr
  obtain ⟨a, s1, hm, hf⟩ := runs_bind.1 hr
  obtain ⟨ls, hls, hF⟩ := h s a s1 hm
  obtain ⟨ls', hls', hG⟩ := h' a s1 b s' hf
  exact ⟨ls ++ ls', by rw [hls', hls, List.append_assoc], hseq _ _ _ _ _ hF hG⟩

theorem Writes.throw (e : Fault) : Writes F (throw e : EmitM α) := fun _ _ _ hr => (runs_throw.1 hr).elim

theorem Writes.ite {c : Prop} [Decidable c] {k : EmitM α} (h : c → Writes F m) (h' : ¬ c → Writes F k) :
    Writes F (if c then m else k) := by
  split
  next hc => exact h hc
  next hc => exact h' hc

theorem Writes.lift {e : Except Fault α} (h : ∀ a, e = .ok a → Writes F (f a)) : Writes F (Emit.lift e >>= f) := by
  intro s b s' hr
  obtain ⟨a, ha, hf⟩ := runs_emit_lift_bind.1 hr
  exact h a ha s b s' hf

theorem Writes.get {f : EmitState → EmitM β} (h : ∀ s, Writes F (f s)) : Writes F (get >>= f) := by
  intro s b s' hr
  exact h s s b s' (runs_get_bind.1 hr)

theorem Writes.silent (h : Silent m) (h' : ∀ a, Writes F (f a)) : Writes F (m >>= f) := by
  intro s b s' hr
  obtain ⟨a, s1, hm, hf⟩ := runs_bind.1 hr
  obtain ⟨hcode, hlabels⟩ := h s a s1 hm
  rw [← hcode, ← hlabels]
  exact h' a s1 b s' hf

theorem Silent.writes (h : Silent m) (hF : ∀ n, F n [] n) : Writes F m := by
  intro s a s' hr
  obtain ⟨hcode, hlabels⟩ := h s a s' hr
  exact ⟨[], by rw [hcode, List.append_nil], hlabels ▸ hF _⟩

theorem silent_pure (a : α) : Silent (pure a) := fun s b s' hr => by
  obtain ⟨-, rfl⟩ := runs_pure.1 hr
  exact ⟨rfl, rfl⟩

theorem silent_onTable (op : TableM α) : Silent (Emit.onTable op) := fun s b s' hr => by
  obtain ⟨t, -, rfl⟩ := runs_emit_onTable.1 hr
  exact ⟨rfl, rfl⟩

theorem silent_offsetOf (v : Option Nat) : Silent (Emit.offsetOf v) := fun s b s' hr => by
  have hr := runs_get_bind.1 hr
  split at hr
  · obtain ⟨-, rfl⟩ := runs_pure.1 hr
    exact ⟨rfl, rfl⟩
  · exact (runs_throw.1 hr).elim

theorem writes_line {l : Line} (h : ∀ n, F n [l] n) : Writes F (Emit.line l) := by
  intro s a s' hr
  obtain rfl := runs_modify.1 hr
  exact ⟨[l], by simp, h _⟩

/-- Lines that are added all at once. -/
theorem writes_lines {ls : List Line} (h : ∀ n, F n ls n) : Writes F (Emit.lines ls) := by
  have hexact : Writes (fun n ls' n' => ls' = ls ∧ n' = n) (Emit.lines ls) := by
    clear h
    induction ls with
    | nil => exact (silent_pure _).writes fun n => ⟨rfl, rfl⟩
    | cons l ls ih =>
      refine .bind (writes_line (F := fun n ls' n' => ls' = [l] ∧ n' = n) fun n => ⟨rfl, rfl⟩) (fun _ => ih) ?_
      rintro n _ n1 _ n' ⟨rfl, rfl⟩ ⟨rfl, rfl⟩
      exact ⟨rfl, rfl⟩
  exact hexact.mono fun n ls' n' ⟨hls, hn⟩ => hls ▸ hn ▸ h n

theorem writes_newLabel {use : LabelUse} {f : Label → EmitM β}
    (h : ∀ n, Writes (fun k ls n' => k = n + 1 → H n ls n') (f (.numbered (n + 1) use))) :
    Writes H (Emit.newLabel use >>= f) := by
  intro s b s' hr
  simp only [Emit.newLabel, bind_assoc, pure_bind] at hr
  have hr := runs_get_bind.1 hr
  have hr := runs_set_bind.1 hr
  obtain ⟨ls, hls, hH⟩ := h s.labels _ _ _ hr
  exact ⟨ls, hls, hH rfl⟩

end

/-! ## Conditions that are kept -/

/-- A condition on lines that holds of none, and of lines put together if it holds of both. -/
structure Kept (F : Nat → List Line → Nat → Prop) : Prop where
  nil : ∀ n, F n [] n
  append : ∀ n ls n1 ls' n', F n ls n1 → F n1 ls' n' → F n (ls ++ ls') n'

section

variable {F : Nat → List Line → Nat → Prop} (hF : Kept F) {m : EmitM α} {f : α → EmitM β}

include hF

theorem Kept.pure (a : α) : Writes F (pure a : EmitM α) := (silent_pure a).writes hF.nil

theorem Kept.bind (h : Writes F m) (h' : ∀ a, Writes F (f a)) : Writes F (m >>= f) := Writes.bind h h' hF.append

/-- What is done under a condition comes before the rest. -/
theorem Kept.when {c : Prop} [Decidable c] {m : EmitM Unit} {k : Unit → EmitM β} (h : Writes F m)
    (h' : ∀ u, Writes F (k u)) : Writes F (if c then m >>= k else k ()) := .ite (fun _ => hF.bind h h') fun _ => h' ()

theorem Kept.forIn {xs : List α} {f : α → PUnit → EmitM (ForInStep PUnit)} (h : ∀ x ∈ xs, Writes F (f x ⟨⟩)) :
    Writes F (forIn xs PUnit.unit f) := by
  induction xs with
  | nil => exact hF.pure _
  | cons x xs ih =>
    rw [List.forIn_cons]
    refine hF.bind (h x List.mem_cons_self) fun step => ?_
    cases step with
    | done b => exact hF.pure _
    | yield b => exact ih fun y hy => h y (List.mem_cons_of_mem x hy)

theorem Kept.instrs {is : List Instr} (h : ∀ i ∈ is, ∀ n, F n [.instr i] n) : Writes F (Emit.instrs is) := by
  induction is with
  | nil => exact hF.pure _
  | cons i is ih =>
    exact hF.bind (writes_line (h i List.mem_cons_self)) fun _ => ih fun i' hi' => h i' (List.mem_cons_of_mem i hi')

theorem Kept.runAll {cs : List Coder} {setting : Setting} (h : ∀ c ∈ cs, Writes F (c.run setting)) :
    Writes F (Emit.runAll setting cs) := by
  induction cs with
  | nil => exact hF.pure _
  | cons c cs ih => exact hF.bind (h c List.mem_cons_self) fun _ => ih fun d hd => h d (List.mem_cons_of_mem c hd)

end

end MiniC
