import MiniC.Proofs.IntLang.Generating.Expr
import MiniC.Proofs.PointerLang.Semantics

/-!
# Code of expressions with pointers

`Tree T n e` says that a tree with resolved names is that of an expression. From such a tree the code maker gives
the code that `Expr.code` describes, wherever the expression is used: a place for its address, a value for itself.
-/

namespace MiniC.PointerLang

open IntLang (arithMiddle arithEnd)

/-! ## Code -/

def Ty.cell : Ty → Cell
  | int => .int
  | pointer => .address

/-- What a step counts in; only pointers have it. -/
def Ty.size? : Ty → Option Int
  | int => none
  | pointer => some intCells

/-- The place of a variable in its frame. -/
def offset (T : SymbolTable) (v : Nat) : Int := (T.symbol v).address.getD 0 + Emit.frameOffset

/-- The number of labels in the code of an expression. -/
def Expr.labels : {f : Form} → Expr f → Nat
  | _, .fetch e | _, .deref e | _, .plus e | _, .minus e | _, .not e | _, .step _ _ e => e.labels
  | _, .arith _ l r | _, .compare _ l r | _, .logic _ l r | _, .comma l r | _, .shift _ l r | _, .shifted l r
  | _, .assign l r => l.labels + r.labels
  | _, .cond c a b => 2 + c.labels + a.labels + b.labels
  | _, _ => 0

/-- The code of an expression, which leaves its value on the stack, or the address of a place. -/
def Expr.code (T : SymbolTable) : {f : Form} → Expr f → Nat → List Line
  | _, .int v, _ => Emit.code [.ldc .int (.number v)]
  | _, .load t v, _ => Emit.code [.lod t.cell (T.levelOf v) (offset T v)]
  | _, .fetch e, n => e.code T n ++ Emit.code [.ind .int]
  | _, .addressOf v, _ => Emit.code [.lda (T.levelOf v) (offset T v)]
  | _, .plus e, n => e.code T n
  | _, .minus e, n => e.code T n ++ Emit.code [.neg .int]
  | _, .not e, n => e.code T n ++ Emit.code [.conv .int .bool, .not, .conv .bool .int]
  | _, .arith op l r, n =>
    l.code T n ++ Emit.code (arithMiddle op) ++ r.code T (n + l.labels) ++ Emit.code (arithEnd op)
  | _, .compare (t := t) op l r, n =>
    l.code T n ++ r.code T (n + l.labels) ++ Emit.code [.compare op t.cell, .conv .bool .int]
  | _, .logic op l r, n =>
    l.code T n ++ Emit.code [.conv .int .bool] ++ r.code T (n + l.labels)
      ++ Emit.code [.conv .int .bool, .logic op, .conv .bool .int]
  | _, .cond c a b, n =>
    c.code T (n + 2) ++ Emit.code [.conv .int .bool, .fjp (.numbered (n + 1) .elseBranch)]
      ++ a.code T (n + 2 + c.labels)
      ++ [.instr (.ujp (.numbered (n + 2) .afterIf)), .label (.numbered (n + 1) .elseBranch)]
      ++ b.code T (n + 2 + c.labels + a.labels) ++ [.label (.numbered (n + 2) .afterIf)]
  | _, .comma (t := t) a b, n =>
    Emit.code [.ldc .address (.number 0)] ++ a.code T n ++ Emit.code [.sto t.cell] ++ b.code T (n + a.labels)
  | _, .shift up p e, n =>
    p.code T n ++ Emit.code [.conv .address .int] ++ e.code T (n + p.labels)
      ++ Emit.code [.ldc .int (.number intCells), .arith .mul .int, .arith (if up then .add else .sub) .int,
        .conv .int .address]
  | _, .shifted e p, n =>
    e.code T n ++ Emit.code [.ldc .int (.number intCells), .arith .mul .int] ++ p.code T (n + e.labels)
      ++ Emit.code [.conv .address .int, .arith .add .int, .conv .int .address]
  | _, .assign (t := t) p e, n =>
    p.code T n ++ Emit.code [.dpl .address] ++ e.code T (n + p.labels) ++ Emit.code [.sto t.cell, .ind t.cell]
  | _, .step (t := t) up side p, n =>
    p.code T n ++ Emit.code ([.dpl .address, .dpl .address, .ind t.cell] ++ stepCode t.cell t.size? up
      ++ [.sto t.cell, .ind t.cell] ++ if side = .after then stepCode t.cell t.size? !up else [])
  | _, .var _ v, _ => Emit.code [.lda (T.levelOf v) (offset T v)]
  | _, .deref e, n => e.code T n

/-! ## Types -/

/-- The type `int`, or that of a pointer to it; constness does not matter. -/
def Ty.Fits : Ty → CType → Prop
  | int, c => c.IsInt
  | pointer, c => c.base = .int ∧ ∃ a b, c.layers = [⟨.scalar, a⟩, ⟨.scalar, b⟩]

namespace Ty.Fits

variable {t : Ty} {c : CType}

theorem eq_pointer (h : pointer.Fits c) : ∃ isValue a b, c = .declared .int a [⟨.scalar, b⟩] isValue := by
  obtain ⟨base, isValue, layers⟩ := c
  obtain ⟨rfl, a, b, rfl⟩ := h
  exact ⟨isValue, a, b, rfl⟩

theorem asValue (h : t.Fits c) : ∃ u, c.asValue = .ok u ∧ t.Fits u := by
  cases t with
  | int => exact CType.IsInt.asValue h
  | pointer =>
    obtain ⟨isValue, a, b, rfl⟩ := h.eq_pointer
    cases isValue
    · exact ⟨_, rfl, rfl, a, b, rfl⟩
    · exact ⟨_, rfl, rfl, a, b, rfl⟩

theorem cellOf (h : t.Fits c) : Emit.cellOf c = .ok t.cell := by
  cases t with
  | int => exact CType.IsInt.cellOf h
  | pointer =>
    obtain ⟨isValue, a, b, rfl⟩ := h.eq_pointer
    rfl

theorem isArray (h : t.Fits c) : c.isArray = .ok false := by
  cases t with
  | int => exact CType.IsInt.isArray h
  | pointer =>
    obtain ⟨isValue, a, b, rfl⟩ := h.eq_pointer
    rfl

theorem agrees_void (h : t.Fits c) : c.agrees .void = .ok false := by
  cases t with
  | int => exact CType.IsInt.agrees_void h
  | pointer =>
    obtain ⟨isValue, a, b, rfl⟩ := h.eq_pointer
    rfl

theorem isPointer (h : t.Fits c) : c.isPointer = .ok (t = .pointer) := by
  cases t with
  | int => exact CType.IsInt.isPointer h
  | pointer =>
    obtain ⟨isValue, a, b, rfl⟩ := h.eq_pointer
    rfl

theorem pointee (h : pointer.Fits c) : int.Fits { c.pointee with isValue := false } := by
  obtain ⟨isValue, a, b, rfl⟩ := h.eq_pointer
  exact ⟨rfl, a, rfl⟩

theorem pointee_size (h : pointer.Fits c) : c.pointee.size = .ok intCells := by
  obtain ⟨isValue, a, b, rfl⟩ := h.eq_pointer
  rfl

theorem stepSize (h : t.Fits c) : StepSize c t.size? := by
  cases t with
  | int => exact .number h.isPointer
  | pointer => exact .pointer h.isPointer h.pointee_size

theorem addressOf (h : int.Fits c) : pointer.Fits { c with isValue := true, layers := c.layers ++ [⟨.scalar, false⟩] } := by
  obtain ⟨isValue, a, rfl⟩ := CType.IsInt.eq h
  exact ⟨rfl, a, false, rfl⟩

end Ty.Fits

/-! ## Trees -/

inductive Names (T : SymbolTable) : Ty → Nat → Node → Prop
  | mk {id x o t v level a} (type : t.Fits (T.symbol v).type) (level : T.levelOf v = some level)
      (address : (T.symbol v).address = some a) : Names T t v (.mk id (.name x (some (T.symbol v).type) (some v)) o [])

inductive Tree (T : SymbolTable) : {f : Form} → Node → Expr f → Prop
  | int {id o} (v : Int) : Tree T (.mk id (.integer v) o []) (.int v)
  | load {n t v} : Names T t v n → Tree T n (.load t v)
  | fetch {id o n e} : Tree T n e → Tree T (.mk id .dereference o [n]) (.fetch e)
  | addressOf {id o n v} : Names T .int v n → Tree T (.mk id .addressOf o [n]) (.addressOf v)
  | plus {id o side n e} : Tree T n e → Tree T (.mk id (.unary .plus side) o [n]) (.plus e)
  | minus {id o side n e} : Tree T n e → Tree T (.mk id (.unary .minus side) o [n]) (.minus e)
  | not {id o n e} : Tree T n e → Tree T (.mk id .logicalNot o [n]) (.not e)
  | arith {id o op l r a b} : Tree T l a → Tree T r b → Tree T (.mk id (.arith op) o [l, r]) (.arith op a b)
  | compare {id o op l r t} {a b : Expr (.value t)} :
      Tree T l a → Tree T r b → Tree T (.mk id (.compare op) o [l, r]) (.compare op a b)
  | logic {id o op l r a b} : Tree T l a → Tree T r b → Tree T (.mk id (.logic op) o [l, r]) (.logic op a b)
  | cond {id o n l r t c} {a b : Expr (.value t)} :
      Tree T n c → Tree T l a → Tree T r b → Tree T (.mk id .conditional o [n, l, r]) (.cond c a b)
  | comma {id o l r t u} {a : Expr (.value t)} {b : Expr (.value u)} :
      Tree T l a → Tree T r b → Tree T (.mk id .comma o [l, r]) (.comma a b)
  | shift {id o l r p e} (up : Bool) : Tree T l p → Tree T r e →
      Tree T (.mk id (.arith (if up then .add else .sub)) o [l, r]) (.shift up p e)
  | shifted {id o l r p e} : Tree T l e → Tree T r p → Tree T (.mk id (.arith .add) o [l, r]) (.shifted e p)
  | assign {id o l r t} {p : Expr (.place t)} {e : Expr (.value t)} :
      Tree T l p → Tree T r e → Tree T (.mk id .assign o [l, r]) (.assign p e)
  | step {id o side n t} {p : Expr (.place t)} (up : Bool) : Tree T n p →
      Tree T (.mk id (.unary (if up then .increment else .decrement) side) o [n]) (.step up side p)
  | var {n t v} : Names T t v n → Tree T n (.var t v)
  | deref {id o n e} : Tree T n e → Tree T (.mk id .dereference o [n]) (.deref e)

/-- The type of what an expression gives. -/
def Form.ty : Form → Ty
  | value t | place t => t

section

variable {T : SymbolTable} {f : Form} {n l r : Node} {e : Expr f} {t u : Ty} {v k : Nat}

theorem Names.typed (h : Names T t v n) : ∃ c, n.HasType c ∧ t.Fits c := by
  obtain @⟨id, x, o, t, v, level, a, htype, -, -⟩ := h
  exact ⟨_, Node.hasType_name, htype⟩

theorem hasType_dereference {id : Nat} {o : Option ParseTree} {c : CType} (h : n.HasType c) (hc : Ty.pointer.Fits c) :
    (Node.mk id .dereference o [n]).HasType { c.pointee with isValue := false } := by
  intro around
  obtain ⟨isValue, a, b, rfl⟩ := hc.eq_pointer
  simp [Node.typeOf?, Node.typesOf, h (some .dereference), Node.required, CType.declared, pure, Except.pure, bind, Except.bind]

theorem hasType_arith {id : Nat} {op : ArithOp} {o : Option ParseTree} {c d : CType} (hl : l.HasType c) (hr : r.HasType d)
    (hc : t.Fits c) (hd : u.Fits d) :
    ∃ w, (Node.mk id (.arith op) o [l, r]).HasType w ∧ (if u = .pointer then u else t).Fits w := by
  obtain ⟨c', hc', hct⟩ := hc.asValue
  obtain ⟨d', hd', hdt⟩ := hd.asValue
  by_cases hu : u = .pointer
  · refine ⟨d', fun around => ?_, by rwa [if_pos hu]⟩
    simp [Node.typeOf?, Node.typesOf, hl (some (.arith op)), hr (some (.arith op)), Node.required, hd.isPointer, hu, hd', pure,
      Except.pure, bind, Except.bind, Functor.map, Except.map]
  · refine ⟨c', fun around => ?_, by rwa [if_neg hu]⟩
    simp [Node.typeOf?, Node.typesOf, hl (some (.arith op)), hr (some (.arith op)), Node.required, hd.isPointer, hu, hc', pure,
      Except.pure, bind, Except.bind, Functor.map, Except.map]

/-- The type of a choice and of a comma is that of the second part. -/
theorem hasType_second {id : Nat} {kind : Kind} {o : Option ParseTree} {rest : List Node} {c : CType}
    (hkind : kind = .comma ∨ kind = .conditional) (hr : r.HasType c) (hc : t.Fits c) :
    ∃ w, (Node.mk id kind o (l :: r :: rest)).HasType w ∧ t.Fits w := by
  obtain ⟨w, hw, ht⟩ := hc.asValue
  refine ⟨w, fun around => ?_, ht⟩
  obtain rfl | rfl := hkind
  · simp [Node.typeOf?, Node.typesOf, hr (some .comma), Node.required, hw, pure, Except.pure, bind, Except.bind, Functor.map, Except.map]
  · simp [Node.typeOf?, Node.typesOf, hr (some .conditional), Node.required, hw, pure, Except.pure, bind, Except.bind, Functor.map, Except.map]

theorem Tree.typed (h : Tree T n e) : ∃ c, n.HasType c ∧ f.ty.Fits c := by
  induction h with
  | int | not | compare | logic => exact ⟨.int, fun _ => rfl, rfl, false, rfl⟩
  | load hv | var hv => exact hv.typed
  | fetch _ ih | deref _ ih =>
    obtain ⟨c, hc, hfits⟩ := ih
    exact ⟨_, hasType_dereference hc hfits, hfits.pointee⟩
  | addressOf hv =>
    obtain ⟨c, hc, hfits⟩ := hv.typed
    refine ⟨_, fun around => ?_, hfits.addressOf⟩
    simp [Node.typeOf?, Node.typesOf, hc (some .addressOf), Node.required, pure, Except.pure, bind, Except.bind]
  | plus _ ih | minus _ ih | step _ _ ih =>
    obtain ⟨c, hc, hfits⟩ := ih
    exact ⟨c, fun _ => hc (some (.unary _ _)), hfits⟩
  | arith _ _ ihl ihr | shift _ _ _ ihl ihr | shifted _ _ ihl ihr =>
    obtain ⟨c, hc, hfits⟩ := ihl
    obtain ⟨d, hd, hfits'⟩ := ihr
    exact hasType_arith hc hd hfits hfits'
  | cond _ _ _ _ ih _ =>
    obtain ⟨c, hc, hfits⟩ := ih
    exact hasType_second (.inr rfl) hc hfits
  | comma _ _ _ ih =>
    obtain ⟨c, hc, hfits⟩ := ih
    exact hasType_second (.inl rfl) hc hfits
  | assign _ _ ih _ =>
    obtain ⟨c, hc, hfits⟩ := ih
    exact ⟨c, fun _ => hc (some .assign), hfits⟩

/-- The code is made for an address. -/
def Form.isPlace : Form → Bool
  | value _ => false
  | place _ => true

theorem Names.usedCode_address (h : Names T t v n) : UsedCode true T n k (Emit.code [.lda (T.levelOf v) (offset T v)]) k := by
  obtain @⟨id, x, o, t, v, level, a, -, hlevel, haddress⟩ := h
  rw [hlevel, offset, haddress]
  exact usedCode_name_address hlevel haddress

theorem Names.usedCode_value (h : Names T t v n) : UsedCode false T n k (Emit.code [.lod t.cell (T.levelOf v) (offset T v)]) k := by
  obtain @⟨id, x, o, t, v, level, a, htype, hlevel, haddress⟩ := h
  rw [hlevel, offset, haddress]
  exact usedCode_of_make _ (madeCode_name hlevel haddress htype.isArray htype.cellOf)

theorem Names.not_dereference (h : Names T t v n) : (n.kind == .dereference) = false := by
  cases h
  rfl

/-- From the tree of an expression its code is made. -/
theorem Tree.usedCode (h : Tree T n e) (k : Nat) : UsedCode f.isPlace T n k (e.code T k) (k + e.labels) := by
  induction h generalizing k with
  | int v => exact usedCode_integer _ _ v
  | load hv => exact hv.usedCode_value
  | var hv => exact hv.usedCode_address
  | addressOf hv => exact usedCode_addressOf hv.usedCode_address hv.not_dereference
  | fetch hn ih =>
    obtain ⟨c, hc, hfits⟩ := hn.typed
    exact usedCode_dereference_value (ih k) (hasType_dereference hc hfits) hfits.pointee.cellOf
  | deref _ ih => exact usedCode_dereference_address (ih k)
  | plus hn ih =>
    obtain ⟨c, hc, hfits⟩ := hn.typed
    exact usedCode_of_make _ ((madeCode_sign (ih k) hc.exprType hfits.cellOf rfl).cast (List.append_nil _) rfl)
  | minus hn ih =>
    obtain ⟨c, hc, hfits⟩ := hn.typed
    exact usedCode_of_make _ (madeCode_sign (ih k) hc.exprType hfits.cellOf rfl)
  | not _ ih =>
    rintro ⟨_, again, after, above⟩ rfl -
    exact madeCode_not (ih k) again after above
  | step up hn ih =>
    obtain ⟨c, hc, hfits⟩ := hn.typed
    exact usedCode_of_make _ (madeCode_step (ih k) hc.exprType hfits.cellOf hfits.stepSize up)
  | arith hl hr ihl ihr =>
    obtain ⟨c, hc, hfits⟩ := hl.typed
    obtain ⟨d, hd, hfits'⟩ := hr.typed
    exact usedCode_of_make _ ((madeCode_arith (ihl k) (ihr _) hc.exprType hd.exprType hfits.isPointer hfits'.isPointer
      (hc.cell hfits.cellOf)).cast rfl (Nat.add_assoc ..))
  | shift up hl hr ihl ihr =>
    obtain ⟨c, hc, hfits⟩ := hl.typed
    obtain ⟨d, hd, -⟩ := hr.typed
    have hop : Emit.machineOp (if up then .add else .sub) = .ok (if up then .add else .sub) := by cases up <;> rfl
    exact usedCode_of_make _ ((madeCode_pointer true (ihl k) (ihr _) hc.exprType hd.exprType hop hfits.isPointer nofun
      hfits.pointee_size).cast rfl (Nat.add_assoc ..))
  | shifted hl hr ihl ihr =>
    obtain ⟨c, hc, hfits⟩ := hl.typed
    obtain ⟨d, hd, hfits'⟩ := hr.typed
    exact usedCode_of_make _ ((madeCode_pointer false (ihl k) (ihr _) hc.exprType hd.exprType rfl hfits.isPointer
      (fun _ => hfits'.isPointer) hfits'.pointee_size).cast rfl (Nat.add_assoc ..))
  | compare hl _ ihl ihr =>
    obtain ⟨c, hc, hfits⟩ := hl.typed
    exact usedCode_of_make _ ((madeCode_compare (ihl k) (ihr _) (hc.cell hfits.cellOf)).cast rfl (Nat.add_assoc ..))
  | logic _ _ ihl ihr => exact usedCode_of_make _ ((madeCode_logic (ihl k) (ihr _)).cast rfl (Nat.add_assoc ..))
  | cond hn _ _ ihn ihl ihr =>
    obtain ⟨c, hc, hfits⟩ := hn.typed
    exact usedCode_of_make _ ((madeCode_cond (ihn _) (hc.cell hfits.cellOf) (ihl _) (ihr _)).cast rfl
      (by simp [Expr.labels, Nat.add_assoc]))
  | comma hl hr ihl ihr =>
    obtain ⟨c, hc, hfits⟩ := hl.typed
    obtain ⟨d, hd, hfits'⟩ := (Tree.comma hl hr).typed
    exact usedCode_of_make _ ((madeCode_comma (ihl k) (ihr _) (hc.cell hfits.cellOf) hd.exprType hfits'.agrees_void).cast rfl
      (Nat.add_assoc ..))
  | assign hl _ ihl ihr =>
    obtain ⟨c, hc, hfits⟩ := hl.typed
    exact usedCode_of_make _ ((madeCode_assign (ihl k) (ihr _) (hc.cell hfits.cellOf)).cast rfl (Nat.add_assoc ..))

end

end MiniC.PointerLang
