import Mathlib.Order.Defs.Unbundled
import MiniC.Code.Emit

/-!
# Runs of passes

Passes, operations on the symbol table and code makers are computations that change a state and may end in a
fault. `Runs m s a s'` says that `m` gives `a` and takes `s` to `s'`; the lemmas take a run apart along the
computation. `Moves R m` says that `m` relates the states before and after it, also if it ends in a fault.
-/

namespace MiniC

variable {s s' : PassState}

variable {σ α β : Type}

theorem except_bind_eq_ok {ε : Type} {e : Except ε α} {f : α → Except ε β} {b : β} :
    e >>= f = .ok b ↔ ∃ a, e = .ok a ∧ f a = .ok b := by
  cases e <;> simp [bind, Except.bind]

theorem toOption_eq_some {ε : Type} {e : Except ε α} {a : α} : e.toOption = some a ↔ e = .ok a := by
  cases e <;> simp [Except.toOption]

def outcome (m : ExceptT Fault (StateM σ) α) (s : σ) : Except Fault α × σ := m.run.run s

/-- The computation gives a result, and the state is then another. -/
def Runs (m : ExceptT Fault (StateM σ) α) (s : σ) (a : α) (s' : σ) : Prop := outcome m s = (.ok a, s')

section

variable {s s' : σ} {a : α} {b : β} {m : ExceptT Fault (StateM σ) α} {f : α → ExceptT Fault (StateM σ) β}
  {e : Except Fault α}

theorem outcome_pure (x : α) : outcome (pure x) s = (.ok x, s) := rfl

theorem outcome_bind : outcome (m >>= f) s =
    match outcome m s with
    | (.ok a, s1) => outcome (f a) s1
    | (.error e, s1) => (.error e, s1) := by
  simp only [outcome, ExceptT.run_bind, StateT.run_bind]
  rcases m.run.run s with ⟨_ | a, s1⟩ <;> rfl

theorem outcome_throw (x : Fault) : outcome (throw x : ExceptT Fault (StateM σ) α) s = (.error x, s) := rfl

theorem outcome_get : outcome (get : ExceptT Fault (StateM σ) σ) s = (.ok s, s) := rfl

theorem outcome_set (x : σ) : outcome (set x : ExceptT Fault (StateM σ) PUnit) s = (.ok (), x) := rfl

theorem outcome_modify (g : σ → σ) : outcome (modify g : ExceptT Fault (StateM σ) PUnit) s = (.ok (), g s) := rfl

theorem outcome_onTable {op : TableM α} {s : PassState} : outcome (Pass.onTable op) s =
    ((outcome op s.table).1, { s with table := (outcome op s.table).2 }) := rfl

theorem outcome_emit_onTable {op : TableM α} {s : EmitState} : outcome (Emit.onTable op) s =
    ((outcome op s.table).1, { s with table := (outcome op s.table).2 }) := rfl

theorem outcome_mk : outcome (ExceptT.mk (pure e) : ExceptT Fault (StateM σ) α) s = (e, s) := rfl

@[simp] theorem runs_pure {x : α} : Runs (pure x) s a s' ↔ a = x ∧ s' = s := by
  simp [Runs, outcome_pure, eq_comm]

@[simp] theorem runs_bind : Runs (m >>= f) s b s' ↔ ∃ a s1, Runs m s a s1 ∧ Runs (f a) s1 b s' := by
  simp only [Runs, outcome_bind]
  rcases outcome m s with ⟨_ | a, s1⟩ <;> simp [and_assoc]

@[simp] theorem runs_map {g : α → β} : Runs (g <$> m) s b s' ↔ ∃ a, Runs m s a s' ∧ b = g a := by
  simp [← bind_pure_comp]

@[simp] theorem runs_throw {x : Fault} : Runs (throw x) s a s' ↔ False := by simp [Runs, outcome_throw]

@[simp] theorem runs_get {x : σ} : Runs get s x s' ↔ x = s ∧ s' = s := by simp [Runs, outcome_get, eq_comm]

@[simp] theorem runs_set {x : σ} {u : PUnit} : Runs (set x) s u s' ↔ s' = x := by
  simp [Runs, outcome_set, eq_comm]

@[simp] theorem runs_modify {g : σ → σ} {u : PUnit} : Runs (modify g) s u s' ↔ s' = g s := by
  simp [Runs, outcome_modify, eq_comm]

@[simp high] theorem runs_get_bind {f : σ → ExceptT Fault (StateM σ) β} : Runs (get >>= f) s b s' ↔ Runs (f s) s b s' := by
  simp [and_assoc]

@[simp high] theorem runs_get_map {g : σ → β} :
    Runs (g <$> (get : ExceptT Fault (StateM σ) σ)) s b s' ↔ b = g s ∧ s' = s := by
  simp [and_assoc, and_comm]

@[simp high] theorem runs_set_bind {x : σ} {f : PUnit → ExceptT Fault (StateM σ) β} :
    Runs (set x >>= f) s b s' ↔ Runs (f ()) x b s' := by
  simp only [runs_bind, runs_set, exists_eq_left]
  exact ⟨fun ⟨_, h⟩ => h, fun h => ⟨(), h⟩⟩

@[simp high] theorem runs_modify_bind {g : σ → σ} {f : PUnit → ExceptT Fault (StateM σ) β} :
    Runs (modify g >>= f) s b s' ↔ Runs (f ()) (g s) b s' := by
  simp only [runs_bind, runs_modify, exists_eq_left]
  exact ⟨fun ⟨_, h⟩ => h, fun h => ⟨(), h⟩⟩

@[simp] theorem runs_mk : Runs (ExceptT.mk (pure e)) s a s' ↔ e = .ok a ∧ s' = s := by
  simp [Runs, outcome_mk, eq_comm]

@[simp] theorem runs_pass_lift {s s' : PassState} : Runs (Pass.lift e) s a s' ↔ e = .ok a ∧ s' = s :=
  runs_mk

@[simp high] theorem runs_pass_lift_bind {f : α → PassM β} {s s' : PassState} :
    Runs (Pass.lift e >>= f) s b s' ↔ ∃ a, e = .ok a ∧ Runs (f a) s b s' := by
  simp [and_assoc]

theorem pass_lift_ok (a : α) : Pass.lift (.ok a) = pure a := rfl

@[simp] theorem runs_emit_lift {s s' : EmitState} : Runs (Emit.lift e) s a s' ↔ e = .ok a ∧ s' = s :=
  runs_mk

@[simp high] theorem runs_emit_lift_bind {f : α → EmitM β} {s s' : EmitState} :
    Runs (Emit.lift e >>= f) s b s' ↔ ∃ a, e = .ok a ∧ Runs (f a) s b s' := by
  simp [and_assoc]

@[simp] theorem runs_table_lift {t t' : SymbolTable} :
    Runs (SymbolTable.assignAddress.liftExcept e) t a t' ↔ e = .ok a ∧ t' = t :=
  runs_mk

@[simp high] theorem runs_table_lift_bind {f : α → TableM β} {t t' : SymbolTable} :
    Runs (SymbolTable.assignAddress.liftExcept e >>= f) t b t' ↔ ∃ a, e = .ok a ∧ Runs (f a) t b t' := by
  simp [and_assoc]

@[simp] theorem runs_onTable {op : TableM α} {s s' : PassState} :
    Runs (Pass.onTable op) s a s' ↔ ∃ t, Runs op s.table a t ∧ s' = { s with table := t } := by
  rcases h : outcome op s.table with ⟨_ | b, t⟩ <;> simp [Runs, outcome_onTable, h, and_assoc, eq_comm]

@[simp] theorem runs_emit_onTable {op : TableM α} {s s' : EmitState} :
    Runs (Emit.onTable op) s a s' ↔ ∃ t, Runs op s.table a t ∧ s' = { s with table := t } := by
  rcases h : outcome op s.table with ⟨_ | b, t⟩ <;> simp [Runs, outcome_emit_onTable, h, and_assoc, eq_comm]

end

/-! ## What every run gives -/

/-- Every result of a computation meets a condition. -/
def Gives (P : α → Prop) (m : ExceptT Fault (StateM σ) α) : Prop := ∀ s a s', Runs m s a s' → P a

section

variable {P : α → Prop} {m : ExceptT Fault (StateM σ) β} {f : β → ExceptT Fault (StateM σ) α}

@[grind ←] theorem Gives.pure {x : α} (h : P x) : Gives P (pure x : ExceptT Fault (StateM σ) α) := by
  intro s a s' hr
  obtain ⟨rfl, -⟩ := runs_pure.1 hr
  exact h

@[grind ←] theorem Gives.throw (e : Fault) : Gives P (throw e : ExceptT Fault (StateM σ) α) := by
  intro s a s' hr
  exact (runs_throw.1 hr).elim

@[grind ←] theorem Gives.bind (h : ∀ a, Gives P (f a)) : Gives P (m >>= f) := by
  intro s a s' hr
  obtain ⟨b, s1, -, hr⟩ := runs_bind.1 hr
  exact h b _ _ _ hr

theorem Gives.mono {Q : α → Prop} {m : ExceptT Fault (StateM σ) α} (h : Gives Q m) (hPQ : ∀ a, Q a → P a) :
    Gives P m := fun s a s' hr => hPQ a (h s a s' hr)

/-- What the first part of a computation gives may be used for the rest. -/
theorem Gives.andThen {Q : β → Prop} (h : Gives Q m) (h' : ∀ a, Q a → Gives P (f a)) : Gives P (m >>= f) := by
  intro s a s' hr
  obtain ⟨b, s1, hb, hr⟩ := runs_bind.1 hr
  exact h' b (h _ _ _ hb) _ _ _ hr

theorem Gives.lift {e : Except Fault β} {f : β → PassM α} (h : ∀ a, e = .ok a → Gives P (f a)) :
    Gives P (Pass.lift e >>= f) := by
  intro s a s' hr
  obtain ⟨b, hb, hr⟩ := runs_pass_lift_bind.1 hr
  exact h b hb _ _ _ hr

end

/-! ## What every run keeps to -/

/-- The states before and after a computation are related. -/
def Moves (R : σ → σ → Prop) (m : ExceptT Fault (StateM σ) α) : Prop := ∀ s, R s (outcome m s).2

section

variable {R : σ → σ → Prop} {m : ExceptT Fault (StateM σ) α} {f : α → ExceptT Fault (StateM σ) β}

theorem Moves.runs {s s' : σ} {a : α} (h : Moves R m) (hr : Runs m s a s') : R s s' := by
  have := h s
  rwa [hr] at this

theorem Moves.modify {g : σ → σ} (h : ∀ s, R s (g s)) : Moves R (modify g : ExceptT Fault (StateM σ) PUnit) := h

@[grind ←] theorem Moves.pure [Std.Refl R] (x : α) : Moves R (pure x : ExceptT Fault (StateM σ) α) := fun s => Std.Refl.refl s

@[grind ←] theorem Moves.throw [Std.Refl R] (x : Fault) : Moves R (throw x : ExceptT Fault (StateM σ) α) :=
  fun s => Std.Refl.refl s

@[grind ←] theorem Moves.get [Std.Refl R] : Moves R (get : ExceptT Fault (StateM σ) σ) := fun s => Std.Refl.refl s

@[grind ←] theorem Moves.bind [IsTrans σ R] (h : Moves R m) (h' : ∀ a, Moves R (f a)) : Moves R (m >>= f) := by
  intro s
  have hm := h s
  rw [outcome_bind]
  rcases heq : outcome m s with ⟨e | a, s1⟩
  · rwa [heq] at hm
  · rw [heq] at hm
    exact IsTrans.trans _ _ _ hm (h' a s1)

end

end MiniC
