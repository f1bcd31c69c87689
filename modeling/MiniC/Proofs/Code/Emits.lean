import MiniC.Code.Program
import MiniC.Proofs.Pass.Run

/-!
# Code that is made

`Emits m t n ls t' n'` says that a code maker adds the lines `ls` at the end of any code, that it takes the symbol
table from `t` to `t'`, and the number of labels from `n` to `n'`.
-/

namespace MiniC

def Emits (m : EmitM Unit) (t : SymbolTable) (n : Nat) (ls : List Line) (t' : SymbolTable) (n' : Nat) : Prop :=
  ∀ code, Runs m ⟨t, n, code⟩ () ⟨t', n', code ++ ls.toArray⟩

section

variable {α : Type} {m k : EmitM Unit} {t t1 t' : SymbolTable} {n n1 n' : Nat} {ls ls' : List Line}

theorem emits_pure : Emits (pure ()) t n [] t n := fun code => by simp

theorem Emits.seq (h : Emits m t n ls t1 n1) (h' : Emits k t1 n1 ls' t' n') :
    Emits (do m; k) t n (ls ++ ls') t' n' := fun code => by
  refine runs_bind.2 ⟨(), _, h code, ?_⟩
  have := h' (code ++ ls.toArray)
  simpa using this

/-- The same lines and number of labels, written in another way. -/
theorem Emits.cast (h : Emits m t n ls t' n') (hls : ls = ls') (hn : n' = n1) : Emits m t n ls' t' n1 := hls ▸ hn ▸ h

theorem emits_lift {e : Except Fault α} {f : α → EmitM Unit} {a : α} (he : e = .ok a) (h : Emits (f a) t n ls t' n') :
    Emits (Emit.lift e >>= f) t n ls t' n' := fun code => runs_emit_lift_bind.2 ⟨a, he, h code⟩

theorem emits_get {f : EmitState → EmitM Unit} (h : ∀ code, Emits (f ⟨t, n, code⟩) t n ls t' n') :
    Emits (get >>= f) t n ls t' n' := fun code => runs_get_bind.2 (h code code)

theorem emits_newLabel {use : LabelUse} {f : Label → EmitM Unit}
    (h : Emits (f (.numbered (n + 1) use)) t (n + 1) ls t' n') : Emits (Emit.newLabel use >>= f) t n ls t' n' := fun code => by
  simp only [Emit.newLabel, bind_assoc, pure_bind]
  exact runs_get_bind.2 (runs_set_bind.2 (h code))

theorem emits_line (l : Line) : Emits (Emit.line l) t n [l] t n := fun code => by
  simp [Emit.line]

theorem emits_instr (i : Instr) : Emits (Emit.instr i) t n (Emit.code [i]) t n := emits_line _

theorem emits_place (l : Label) : Emits (Emit.place l) t n [.label l] t n := emits_line _

theorem emits_instrs (is : List Instr) : Emits (Emit.instrs is) t n (Emit.code is) t n := by
  induction is with
  | nil => exact emits_pure
  | cons i is ih => exact (emits_instr i).seq ih

theorem emits_onTable {op : TableM Unit} (h : Runs op t () t') : Emits (Emit.onTable op) t n [] t' n := fun code => by
  simpa using h

end

/-! ## Coders of trees -/

@[simp] theorem Emit.node_coder (n : Node) : (Emit.coder n).node = n := by
  obtain ⟨id, kind, o, cs⟩ := n
  rfl

@[simp] theorem Emit.run_coder (id : Nat) (kind : Kind) (o : Option ParseTree) (cs : List Node) :
    (Emit.coder (.mk id kind o cs)).run = Emit.codeOf (.mk id kind o cs) (Emit.coders cs) := rfl

@[simp] theorem Emit.children_coder (id : Nat) (kind : Kind) (o : Option ParseTree) (cs : List Node) :
    (Emit.coder (.mk id kind o cs)).children = Emit.coders cs := rfl

@[simp] theorem Emit.length_coders (ns : List Node) : (Emit.coders ns).length = ns.length := by
  induction ns with
  | nil => rfl
  | cons n ns ih => simp [Emit.coders, ih]

theorem Emit.coders_eq (ns : List Node) : coders ns = ns.map coder := by
  induction ns with
  | nil => rfl
  | cons n ns ih => rw [coders, ih]; rfl

end MiniC
