import MiniC.Proofs.Code.Emits
import MiniC.Proofs.IntLang.Code

/-!
# Code of operands

`UsedCode address T n k ls k'` says that the code maker of an expression gives the lines `ls` wherever the
expression is used, for its address or for its value, with the symbol table `T` and with the labels numbered
from `k` to `k'`. For each construct its lines follow from those of its parts (`MadeCode`).

`Node.HasType` says what type an expression has, whatever stands around it.
-/

namespace MiniC

open Emit

open IntLang (arithMiddle arithEnd)

/-- The expression has a type, whatever stands around it. -/
def Node.HasType (n : Node) (t : CType) : Prop := ∀ around, n.typeOf? around = .ok (some t)

/-- The lines of an expression wherever its address is used, or its value. -/
def UsedCode (address : Bool) (T : SymbolTable) (n : Node) (k : Nat) (ls : List Line) (k' : Nat) : Prop :=
  ∀ setting : Setting, setting.address = address → isDropped n setting.above = .ok false →
    Emits ((coder n).run setting) T k ls T k'

/-- The lines that a construct makes inside its node. -/
def MadeCode (make : Setting → EmitM Unit) (address : Bool) (T : SymbolTable) (n : Node) (k : Nat) (ls : List Line)
    (k' : Nat) : Prop :=
  ∀ again after above, Emits (make ⟨address, again, after, n :: above⟩) T k ls T k'

section

variable {T : SymbolTable} {n p l r : Node} {t u : CType} {address : Bool} {k k1 k2 k' : Nat} {ls ls1 ls2 : List Line}
  {setting : Setting} {rest : List Node} {make : Setting → EmitM Unit}

theorem Emit.typeOf_coder (n : Node) : Emit.typeOf (coder n) = n.exprType := by rw [Emit.typeOf, node_coder]

theorem Node.HasType.exprType (h : n.HasType t) : n.exprType = .ok t := by
  rw [Node.exprType, Node.typeOf, h none]
  rfl

theorem Node.HasType.cell {c : Cell} (h : n.HasType t) (hcell : cellOf t = .ok c) : Emit.cell (coder n) = .ok c := by
  rw [Emit.cell, typeOf_coder, h.exprType]
  exact hcell

theorem Node.hasType_name {id : Nat} {x : String} {v : Option Nat} {o : Option ParseTree} :
    (Node.mk id (.name x (some t) v) o []).HasType t := fun _ => rfl

theorem isDropped_inside (h : p.kind.isExpression = true) : isDropped n (p :: rest) = .ok false := by
  simp [isDropped, h, pure, Except.pure]

theorem emits_used {m : EmitM Unit} {T' : SymbolTable} (hdrop : isDropped n setting.above = .ok false)
    (h : Emits m T k ls T' k') : Emits (dropping n setting m) T k ls T' k' := by
  unfold dropping
  refine emits_lift hdrop (Emits.cast (emits_pure.seq (h.seq (emits_lift hdrop emits_pure))) ?_ rfl)
  simp

theorem UsedCode.operand (h : UsedCode address T n k ls k') (haddress : setting.address = address := by rfl)
    (habove : setting.above = p :: rest := by rfl) (hp : p.kind.isExpression = true := by rfl) :
    Emits ((coder n).run setting) T k ls T k' := by
  apply h setting haddress
  rw [habove]
  exact isDropped_inside hp

theorem UsedCode.one (h : UsedCode address T n k ls k') (haddress : setting.address = address := by rfl)
    (habove : setting.above = p :: rest := by rfl) (hp : p.kind.isExpression = true := by rfl) :
    Emits (runAll setting (coders [n])) T k ls T k' :=
  ((h.operand haddress habove hp).seq emits_pure).cast (List.append_nil _) rfl

theorem UsedCode.two (hl : UsedCode address T l k ls1 k1) (hr : UsedCode address T r k1 ls2 k')
    (haddress : setting.address = address := by rfl) (habove : setting.above = p :: rest := by rfl)
    (hp : p.kind.isExpression = true := by rfl) :
    Emits (runAll setting (coders [l, r])) T k (ls1 ++ ls2) T k' :=
  (hl.operand haddress habove hp).seq (hr.one haddress habove hp)

/-- The code of an expression that is used is that of its construct. -/
theorem usedCode_of_make (make : Setting → EmitM Unit) (hmake : MadeCode make address T n k ls k')
    (hrun : ∀ setting, (coder n).run setting = dropping n setting (make { setting with above := n :: setting.above }) := by
      intro; rfl) : UsedCode address T n k ls k' := by
  rintro setting rfl hdrop
  rw [hrun]
  exact emits_used hdrop (hmake setting.again setting.after setting.above)

/-- The same lines and number of labels, written in another way. -/
theorem MadeCode.cast (h : MadeCode make address T n k ls k') (hls : ls = ls1) (hk : k' = k1) :
    MadeCode make address T n k ls1 k1 := hls ▸ hk ▸ h

/-! ## Literals and names -/

variable {id : Nat} {o : Option ParseTree}

theorem madeCode_integer {v : Int} :
    MadeCode (fun _ => instr (.ldc .int (.number v))) false T n k (Emit.code [.ldc .int (.number v)]) k :=
  fun _ _ _ => emits_instr _

theorem usedCode_integer (id : Nat) (o : Option ParseTree) (v : Int) :
    UsedCode false T (.mk id (.integer v) o []) k (Emit.code [.ldc .int (.number v)]) k :=
  usedCode_of_make _ madeCode_integer

variable {x : String} {v : Nat} {level a : Int} {c c1 : Cell}

theorem emits_offsetOf {f : Int → EmitM Unit} {T' : SymbolTable} (h : (T.symbol v).address = some a)
    (hf : Emits (f (a + frameOffset)) T k ls T' k') : Emits (offsetOf (some v) >>= f) T k ls T' k' := by
  simp only [offsetOf, bind_assoc]
  refine emits_get fun code => ?_
  simpa [h] using hf

theorem usedCode_name_address (hlevel : T.levelOf v = some level) (haddress : (T.symbol v).address = some a) :
    UsedCode true T (.mk id (.name x (some t) (some v)) o []) k
      (Emit.code [.lda (some level) (a + frameOffset)]) k := by
  refine usedCode_of_make (name _ (some v)) fun _ _ _ => ?_
  unfold name
  refine emits_get fun code => emits_lift rfl ?_
  simp only [if_true, pure_bind, Option.bind_some, hlevel]
  exact emits_offsetOf haddress (emits_instr _)

theorem madeCode_name (hlevel : T.levelOf v = some level) (haddress : (T.symbol v).address = some a)
    (harray : t.isArray = .ok false) (hcell : cellOf t = .ok c) :
    MadeCode (name (.mk id (.name x (some t) (some v)) o []) (some v)) false T (.mk id (.name x (some t) (some v)) o []) k
      (Emit.code [.lod c (some level) (a + frameOffset)]) k := by
  intro _ _ _
  unfold name
  refine emits_get fun code => emits_lift rfl ?_
  simp only [Bool.false_eq_true, if_false, Option.bind_some, hlevel]
  refine emits_lift harray (emits_offsetOf haddress ?_)
  exact emits_lift hcell (emits_instr _)

/-! ## Operators with one operand -/

theorem usedCode_addressOf (hn : UsedCode true T n k ls k') (hkind : (n.kind == .dereference) = false) :
    UsedCode false T (.mk id .addressOf o [n]) k ls k' := by
  refine usedCode_of_make (addressOf (coders [n])) fun _ _ _ => ?_
  unfold addressOf
  refine emits_lift rfl ?_
  simp only [node_coder, hkind, Bool.false_eq_true, if_false]
  exact hn.one

/-- The address of what a pointer points at is the pointer. -/
theorem usedCode_dereference_address (hn : UsedCode false T n k ls k') :
    UsedCode true T (.mk id .dereference o [n]) k ls k' := by
  refine usedCode_of_make (dereference _ (coders [n])) fun _ _ _ => ?_
  unfold dereference
  simp only [Bool.not_true, Bool.false_eq_true, if_false]
  exact (hn.one.seq emits_pure).cast (List.append_nil _) rfl

theorem usedCode_dereference_value (hn : UsedCode false T n k ls k') (ht : (Node.mk id .dereference o [n]).HasType t)
    (hcell : cellOf t = .ok c) :
    UsedCode false T (.mk id .dereference o [n]) k (ls ++ Emit.code [.ind c]) k' := by
  refine usedCode_of_make (dereference _ (coders [n])) fun _ _ _ => ?_
  unfold dereference
  simp only [Bool.not_false, if_true]
  exact hn.one.seq (emits_lift (ht.cell hcell) (emits_instr _))

theorem madeCode_sign {op : UnaryOp} {side : Side} (hn : UsedCode false T n k ls k') (ht : n.exprType = .ok t)
    (hcell : cellOf t = .ok c) (hop : op.isStep = false) :
    MadeCode (unary op side (coders [n])) false T (.mk id (.unary op side) o [n]) k
      (ls ++ Emit.code (if op = .minus then [.neg c] else [])) k' := by
  intro _ _ _
  unfold unary
  refine emits_lift ((typeOf_coder n).trans ht) ?_
  simp only [hop, Bool.false_eq_true, if_false]
  refine hn.one.seq (emits_lift hcell ?_)
  split
  · exact emits_instr _
  · exact emits_pure

theorem madeCode_not (hn : UsedCode false T n k ls k') :
    MadeCode (logicalNot (coders [n])) false T (.mk id .logicalNot o [n]) k
      (ls ++ Emit.code [.conv .int .bool, .not, .conv .bool .int]) k' :=
  fun _ _ _ => hn.one.seq (emits_instrs _)

/-- Adds one to the value on the stack, or takes it away; for a pointer it is the size of what it points at. -/
def stepCode (c : Cell) (size? : Option Int) (up : Bool) : List Instr :=
  let step (c : Cell) (n : Int) : Instr := if up then .inc c n else .dec c n
  match size? with
  | some size => [.conv .address .int, step .int size, .conv .int .address]
  | none => [step c 1]

inductive StepSize (t : CType) : Option Int → Prop
  | pointer {size} (hpointer : t.isPointer = .ok true) (hsize : t.pointee.size = .ok size) : StepSize t (some size)
  | number (hpointer : t.isPointer = .ok false) : StepSize t none

theorem emits_stepValue {size? : Option Int} (hsize : StepSize t size?) (hcell : cellOf t = .ok c) (up : Bool) :
    Emits (stepValue up t) T k (Emit.code (stepCode c size? up)) T k := by
  unfold stepValue
  cases hsize with
  | pointer hpointer hsize =>
    refine emits_lift hpointer ?_
    simp only [if_true]
    exact emits_lift hsize (emits_instrs _)
  | number hpointer =>
    refine emits_lift hpointer ?_
    simp only [Bool.false_eq_true, if_false]
    exact emits_lift hcell (emits_instr _)

theorem madeCode_step {side : Side} {size? : Option Int} (hn : UsedCode true T n k ls k') (ht : n.exprType = .ok t)
    (hcell : cellOf t = .ok c) (hsize : StepSize t size?) (up : Bool) :
    MadeCode (unary (if up then .increment else .decrement) side (coders [n])) false T
      (.mk id (.unary (if up then .increment else .decrement) side) o [n]) k
      (ls ++ Emit.code ([.dpl .address, .dpl .address, .ind c] ++ stepCode c size? up ++ [.sto c, .ind c]
        ++ if side = .after then stepCode c size? !up else [])) k' := by
  intro _ _ _
  have hstep : (if up then UnaryOp.increment else .decrement).isStep = true := by cases up <;> rfl
  have hup : decide ((if up then UnaryOp.increment else .decrement) = .increment) = up := by cases up <;> rfl
  have hdown : decide ((if up then UnaryOp.increment else .decrement) ≠ .increment) = !up := by cases up <;> rfl
  unfold unary
  refine emits_lift ((typeOf_coder n).trans ht) ?_
  simp only [hstep, if_true, hup, hdown]
  have hafter : Emits (if side = .after then stepValue (!up) t else pure ()) T k'
      (Emit.code (if side = .after then stepCode c size? !up else [])) T k' := by
    split
    · exact emits_stepValue hsize hcell _
    · exact emits_pure
  refine Emits.cast (hn.one.seq (emits_lift hcell ((emits_instrs _).seq
    ((emits_stepValue hsize hcell up).seq ((emits_instrs _).seq hafter))))) ?_ rfl
  simp [Emit.code]

/-! ## Operators with more operands -/

theorem madeCode_compare {op : CompareOp} (hl : UsedCode false T l k ls1 k1) (hr : UsedCode false T r k1 ls2 k')
    (hcell : Emit.cell (coder l) = .ok c) :
    MadeCode (compare op (coders [l, r])) false T (.mk id (.compare op) o [l, r]) k
      (ls1 ++ ls2 ++ Emit.code [.compare op c, .conv .bool .int]) k' :=
  fun _ _ _ => (hl.two hr).seq (emits_lift hcell (emits_instrs _))

theorem madeCode_logic {op : LogicOp} (hl : UsedCode false T l k ls1 k1) (hr : UsedCode false T r k1 ls2 k') :
    MadeCode (logic op (coders [l, r])) false T (.mk id (.logic op) o [l, r]) k (ls1 ++ Emit.code [.conv .int .bool] ++ ls2
      ++ Emit.code [.conv .int .bool, .logic op, .conv .bool .int]) k' := by
  intro _ _ _
  refine Emits.cast (emits_lift rfl (hl.operand.seq ((emits_instr _).seq
    (emits_lift rfl (hr.operand.seq (emits_instrs _)))))) ?_ rfl
  simp

theorem machineOp_eq {op : ArithOp} (h : op ≠ .mod) :
    ∃ op', machineOp op = .ok op' ∧ arithMiddle op = [] ∧ arithEnd op = [.arith op' .int] := by
  cases op <;> first | contradiction | exact ⟨_, rfl, rfl, rfl⟩

/-- Arithmetic on numbers. -/
theorem madeCode_arith {op : ArithOp} (hl : UsedCode false T l k ls1 k1) (hr : UsedCode false T r k1 ls2 k')
    (ht : l.exprType = .ok t) (hu : r.exprType = .ok u) (hpointer : t.isPointer = .ok false)
    (hpointer' : u.isPointer = .ok false) (hcell : Emit.cell (coder l) = .ok .int) :
    MadeCode (arith op (coders [l, r])) false T (.mk id (.arith op) o [l, r]) k
      (ls1 ++ Emit.code (arithMiddle op) ++ ls2 ++ Emit.code (arithEnd op)) k' := by
  intro _ _ _
  unfold arith
  refine emits_lift ((typeOf_coder l).trans ht) (emits_lift ((typeOf_coder r).trans hu) ?_)
  by_cases hop : op = .mod
  · subst hop
    simp only [if_true]
    refine Emits.cast (emits_lift rfl (hl.operand.seq ((emits_instrs _).seq (emits_lift rfl
      (hr.operand.seq (emits_instrs _)))))) ?_ rfl
    simp [arithMiddle, arithEnd, IntLang.remainderEnd, loadCell]
  · obtain ⟨op', hop', hmiddle, hend⟩ := machineOp_eq hop
    simp only [hop, if_false]
    refine emits_lift hpointer ?_
    simp only [Bool.false_eq_true, if_false]
    refine emits_lift hpointer' ?_
    simp only [Bool.or_self, Bool.false_eq_true, if_false]
    refine Emits.cast ((hl.two hr).seq (emits_lift hop' (emits_lift hcell (emits_instr _)))) ?_ rfl
    simp [hmiddle, hend, Emit.code]

/-- A pointer, on the left or on the right, that is moved by a number. -/
theorem madeCode_pointer {op : ArithOp} {op' : MachineOp} {size : Int} (left : Bool) (hl : UsedCode false T l k ls1 k1)
    (hr : UsedCode false T r k1 ls2 k') (ht : l.exprType = .ok t) (hu : r.exprType = .ok u) (hop : machineOp op = .ok op')
    (hpointer : t.isPointer = .ok left) (hright : left = false → u.isPointer = .ok true)
    (hsize : (if left then t else u).pointee.size = .ok size) :
    MadeCode (arith op (coders [l, r])) false T (.mk id (.arith op) o [l, r]) k
      (ls1 ++ Emit.code (if left then [.conv .address .int] else [.ldc .int (.number size), .arith .mul .int]) ++ ls2
        ++ Emit.code ((if left then [.ldc .int (.number size), .arith .mul .int] else [.conv .address .int])
          ++ [.arith op' .int, .conv .int .address])) k' := by
  have hmod : op ≠ .mod := by rintro rfl; cases hop
  intro again after above
  unfold arith
  refine emits_lift ((typeOf_coder l).trans ht) (emits_lift ((typeOf_coder r).trans hu) ?_)
  simp only [hmod, if_false]
  refine emits_lift hpointer ?_
  have hcode : Emits (pointerArith op left size (coders [l, r]) ⟨false, again, after, .mk id (.arith op) o [l, r] :: above⟩)
      T k _ T k' := emits_lift rfl (hl.operand.seq ((emits_instrs _).seq (emits_lift rfl
    (hr.operand.seq ((emits_instrs _).seq (emits_lift hop (emits_instrs _)))))))
  cases left with
  | true => exact (emits_lift rfl (emits_lift hsize hcode)).cast (by simp [Emit.code]) rfl
  | false => exact (emits_lift (hright rfl) (emits_lift hsize hcode)).cast (by simp [Emit.code]) rfl

theorem madeCode_comma (hl : UsedCode false T l k ls1 k1) (hr : UsedCode false T r k1 ls2 k')
    (hcell : Emit.cell (coder l) = .ok c) (hu : (Node.mk id .comma o [l, r]).exprType = .ok u)
    (hvoid : u.agrees .void = .ok false) :
    MadeCode (comma (.mk id .comma o [l, r]) (coders [l, r])) false T (.mk id .comma o [l, r]) k
      (Emit.code [.ldc .address (.number 0)] ++ ls1 ++ Emit.code [.sto c] ++ ls2) k' := by
  intro _ _ _
  unfold comma
  refine emits_lift rfl (emits_lift hu (emits_lift hvoid ?_))
  simp only [Bool.false_eq_true, if_false]
  refine Emits.cast ((emits_instr _).seq (hl.operand.seq (emits_lift hcell ((emits_instr _).seq
    (emits_lift rfl hr.operand))))) ?_ rfl
  simp

theorem madeCode_cond (hn : UsedCode false T n (k + 2) ls k1) (hcell : Emit.cell (coder n) = .ok c)
    (hl : UsedCode false T l k1 ls1 k2) (hr : UsedCode false T r k2 ls2 k') :
    MadeCode (choice (coders [n, l, r])) false T (.mk id .conditional o [n, l, r]) k
      (ls ++ Emit.code [.conv c .bool, .fjp (.numbered (k + 1) .elseBranch)] ++ ls1
        ++ [.instr (.ujp (.numbered (k + 2) .afterIf)), .label (.numbered (k + 1) .elseBranch)]
        ++ ls2 ++ [.label (.numbered (k + 2) .afterIf)]) k' := by
  intro _ _ _
  unfold choice
  refine emits_newLabel (emits_newLabel ?_)
  refine Emits.cast (emits_lift rfl (hn.operand.seq (emits_lift hcell ((emits_instrs _).seq
    (emits_lift rfl (hl.operand.seq ((emits_instr _).seq ((emits_place _).seq
      (hr.operand.seq (emits_place _)))))))))) ?_ rfl
  simp [Emit.code]

theorem madeCode_assign (hl : UsedCode true T l k ls1 k1) (hr : UsedCode false T r k1 ls2 k')
    (hcell : Emit.cell (coder l) = .ok c) :
    MadeCode (assign (coders [l, r])) false T (.mk id .assign o [l, r]) k
      (ls1 ++ Emit.code [.dpl .address] ++ ls2 ++ Emit.code [.sto c, .ind c]) k' := by
  intro _ _ _
  unfold assign
  refine Emits.cast (emits_lift rfl (hl.operand.seq ((emits_instr _).seq (emits_lift rfl
    (hr.operand.seq (emits_lift hcell (emits_instrs _))))))) ?_ rfl
  simp

end

end MiniC
