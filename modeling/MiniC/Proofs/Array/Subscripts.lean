import Mathlib.Data.List.Nodup
import MiniC.Proofs.Array.RowMajor
import MiniC.Proofs.IntLang.Generating.Program

/-!
# Elements of arrays

The code of `a[e1]…[eₖ]` for its address goes from the address of `a` inwards, one index at a time; each index is
checked and counted in units of what is left of the type. It leaves the address of the element in row-major order.
The declaration of `a` without an initialiser stores a zero in each of these cells, and in no other.
-/

namespace MiniC

open Machine IntLang Emit

/-! ## Chains of subscripts -/

/-- An index, with the node that it makes of what is on its left. -/
structure Index where
  id : Nat
  origin : Option ParseTree
  node : Node

/-- The tree of `base[e1]…[eₖ]`. -/
def subscripts (base : Node) : List Index → Node
  | [] => base
  | i :: is => subscripts (.mk i.id .subscript i.origin [base, i.node]) is

/-- The lines of the values of the indices, with the labels numbered on from one to the next. -/
inductive IndexCodes (T : SymbolTable) : Nat → List Index → List (List Line) → Nat → Prop
  | nil {k} : IndexCodes T k [] [] k
  | cons {k k1 k' i is ls lss} : UsedCode false T i.node k ls k1 → IndexCodes T k1 is lss k' →
      IndexCodes T k (i :: is) (ls :: lss) k'

/-- The code of the indices of an array with dimensions, from those of their values. -/
def subscriptsCode : List Nat → List (List Line) → List Line
  | n :: ns, ls :: lss =>
    ls ++ Emit.code [.chk 0 (((n :: ns).prod : Nat) - 1), .ixa (ns.prod : Nat)] ++ subscriptsCode ns lss
  | _, _ => []

section

variable {T : SymbolTable} {base i : Node} {t : CType} {n : Nat} {ns : List Nat} {k k1 k' : Nat} {ls ls' : List Line}
  {id : Nat} {o : Option ParseTree}

theorem Node.HasType.subscript (h : base.HasType t) : (Node.mk id .subscript o [base, i]).HasType { t.pointee with isValue := false } := by
  intro around
  simp [typeOf?, typesOf, h (some .subscript), required, pure, Except.pure, bind, Except.bind]

theorem usedCode_subscript (htype : base.HasType t) (hdims : t.HasDimensions (n :: ns)) (hbase : UsedCode true T base k ls k1)
    (hindex : UsedCode false T i k1 ls' k') :
    UsedCode true T (.mk id .subscript o [base, i]) k
      (ls ++ (ls' ++ Emit.code [.chk 0 (((n :: ns).prod : Nat) - 1), .ixa (ns.prod : Nat)])) k' := by
  have helement : (Node.mk id .subscript o [base, i]).exprType = .ok { t.pointee with isValue := false } :=
    htype.subscript.exprType
  have hsize : ({ t.pointee with isValue := false } : CType).size = .ok (ns.prod : Nat) := hdims.pointee.size
  refine usedCode_of_make (subscript _ (coders [base, i])) fun _ _ _ => ?_
  unfold subscript
  refine emits_lift rfl (emits_lift ((typeOf_coder _).trans htype.exprType) (emits_lift helement (.seq hbase.operand ?_)))
  refine emits_lift (CType.isPointer_of_dimensions hdims) ?_
  simp only [Bool.false_eq_true, if_false, Bool.not_false, if_true, Bool.not_true]
  refine Emits.cast (emits_pure.seq (emits_lift rfl (hindex.operand.seq (emits_lift hdims.size
    ((emits_instr _).seq (emits_lift hsize ((emits_instr _).seq emits_pure))))))) ?_ rfl
  simp [Emit.code]

theorem usedCode_subscripts {is : List Index} {lss : List (List Line)} (his : IndexCodes T k1 is lss k')
    (hlength : is.length ≤ ns.length) (htype : base.HasType t) (hdims : t.HasDimensions ns)
    (hbase : UsedCode true T base k ls k1) : UsedCode true T (subscripts base is) k (ls ++ subscriptsCode ns lss) k' := by
  induction his generalizing base t ns ls with
  | nil => cases ns <;> simpa [subscripts, subscriptsCode] using hbase
  | @cons k1 k2 k' i is ls' lss hindex _ ih =>
    cases ns with
    | nil => simp at hlength
    | cons n ns =>
      have helement : ({ t.pointee with isValue := false } : CType).HasDimensions ns := hdims.pointee
      have hcode : UsedCode true T (.mk i.id .subscript i.origin [base, i.node]) k _ k2 :=
        usedCode_subscript htype hdims hbase hindex
      simpa [subscripts, subscriptsCode] using ih (by simpa using hlength) htype.subscript helement hcode

end

/-! ## Runs of subscripts -/

/-- Code that pushes a number, wherever it stands, and whatever is on the stack. -/
def Pushes (code ls : List Line) (c : Machine.Config) (v : Int) (mem : Int → Word) : Prop :=
  ∀ k ws, At code k ls → Reach code k { c with stack := ws } (k + size ls) { c with mem := mem, stack := .int v :: ws }

/-- The values of indices, one after the other; each may change the memory for the next. -/
inductive IndexRuns (code : List Line) : Machine.Config → List (List Line) → List Int → Machine.Config → Prop
  | nil {c} : IndexRuns code c [] [] c
  | cons {c c' mem v vs ls lss} : Pushes code ls c v mem → IndexRuns code { c with mem := mem } lss vs c' →
      IndexRuns code c (ls :: lss) (v :: vs) c'

theorem reach_subscripts {code : List Line} {c c' : Machine.Config} {lss : List (List Line)} {vs : List Int} {ns : List Nat}
    (hruns : IndexRuns code c lss vs c') (hrange : InRange ns vs) {k : Nat} {a : Int} {ws : List Word}
    (hat : At code k (subscriptsCode ns lss)) :
    Reach code k { c with stack := .address a :: ws } (k + size (subscriptsCode ns lss))
      { c' with stack := .address (a + rowMajor ns vs) :: ws } := by
  induction hruns generalizing ns k a with
  | nil =>
    cases hrange
    simpa [subscriptsCode, rowMajor] using Reach.refl _ _ _
  | @cons c c' mem v vs ls lss hpushes _ ih =>
    rcases hrange with _ | @⟨n, _, ns, _, hv, hrange⟩
    have hlast : v ≤ ((n :: ns).prod : Nat) - 1 := by
      have := succ_mul_le hv.2 ns.prod
      have : v * 1 ≤ v * (ns.prod : Nat) :=
        Int.mul_le_mul_of_nonneg_left (by have := prod_pos hrange; omega) hv.1
      have := prod_pos hrange
      rw [List.prod_cons]
      omega
    have hvalue := hpushes k (.address a :: ws) hat.left.left
    have hcheck := hat.left.right
    have hchecked := Reach.chk (c := { c with mem := mem, stack := .int v :: .address a :: ws }) hcheck rfl hv.1 hlast
    have hindexed := Reach.ixa (c := { c with mem := mem, stack := .int v :: .address a :: ws }) hcheck.tail rfl
    have hrest := ih hrange (k := k + size ls + 2) (a := a + v * (ns.prod : Nat)) (hat.right.cast (by simp [Nat.add_assoc]))
    have := hvalue.trans (hchecked.trans (hindexed.trans hrest))
    simpa [subscriptsCode, rowMajor, Nat.add_assoc, Int.add_assoc] using this

/-! ## Cells that are cleared -/

def stores (ls : List Line) : List (Int × Int) :=
  (instrs ls).filterMap fun i =>
    match i with
    | .str _ level offset => some (level, offset)
    | _ => none

def clearCode (cell : Cell) (zero : Constant) (address : Int) (count : Nat) : List Line :=
  (List.range count).flatMap fun j : Nat => Emit.code [.ldc cell zero, .str cell 0 (address + j)]

/-- What an array can hold: a number, a character or a pointer. -/
def CType.IsPlain (t : CType) : Prop := 0 < t.depth ∨ t.base = .int ∨ t.base = .float ∨ t.base = .char

theorem CType.IsPlain.zero {t : CType} (h : t.IsPlain) : ∃ cell zero, cellOf t = .ok cell ∧ zeroOf t = .ok zero := by
  by_cases hdepth : 0 < t.depth
  · exact ⟨.address, .number 0, by simp [cellOf, hdepth, pure, Except.pure], by simp [zeroOf, hdepth, pure, Except.pure]⟩
  · rcases h.resolve_left hdepth with hbase | hbase | hbase <;>
      simp [cellOf, zeroOf, hdepth, hbase, pure, Except.pure]

section

variable {T : SymbolTable} {t : CType} {ns : List Nat} {k : Nat} {cell : Cell} {zero : Constant} {address : Int}

theorem emits_emitAll {α : Type} {f : α → EmitM Unit} {g : α → List Line} (h : ∀ a, Emits (f a) T k (g a) T k) (as : List α) :
    Emits (emitAll f as) T k (as.flatMap g) T k := by
  induction as with
  | nil => exact emits_pure
  | cons a as ih => exact (h a).seq ih

/-- Cells row by row are the cells one by one. -/
theorem clearCode_mul (n p : Nat) :
    (List.range n).flatMap (fun i : Nat => clearCode cell zero (address + i * (p : Int)) p) = clearCode cell zero address (n * p) := by
  induction n with
  | zero => simp [clearCode]
  | succ n ih =>
    rw [List.range_succ, List.flatMap_append, ih, Nat.succ_mul]
    simp [clearCode, List.range_add, List.flatMap_map, Int.add_assoc]

theorem outerCount_of_dimensions {n : Nat} (h : t.HasDimensions (n :: ns)) : outerCount t = .ok n := by
  obtain ⟨-, hhead, -⟩ := CType.dimensions?_cons h
  obtain ⟨layer, hlayer, heq⟩ := CType.outermost_of_head hhead
  simp [outerCount, hlayer, heq, Except.map, Extent.number]

theorem clearArray_succ (dims : Nat) (t : CType) (address : Int) : clearArray (dims + 1) t address = (do
    let count ← lift (outerCount t)
    let size ← lift t.pointee.size
    emitAll (fun i => match dims with
      | 0 => do
        let cell ← lift (cellOf t.pointee)
        let zero ← lift (zeroOf t.pointee)
        storeConstant cell zero (address + Int.ofNat i)
      | _ + 1 => clearArray dims t.pointee (address + Int.ofNat i * size)) (List.range count)) := by
  cases dims <;> simp [clearArray, ← forIn_eq_emitAll]

theorem emits_clearArray (hns : ns ≠ []) (hdims : t.HasDimensions ns)
    (hcell : cellOf (CType.pointee^[ns.length] t) = .ok cell) (hzero : zeroOf (CType.pointee^[ns.length] t) = .ok zero) :
    Emits (clearArray ns.length t address) T k (clearCode cell zero address ns.prod) T k := by
  induction ns generalizing t address with
  | nil => exact absurd rfl hns
  | cons n ns ih =>
    rw [List.length_cons, clearArray_succ]
    refine emits_lift (outerCount_of_dimensions hdims) (emits_lift hdims.pointee.size ?_)
    rw [List.length_cons, Function.iterate_succ_apply] at hcell hzero
    rw [List.prod_cons, ← clearCode_mul]
    refine emits_emitAll (fun i => ?_) _
    cases ns with
    | nil =>
      refine (emits_lift hcell (emits_lift hzero (emits_instrs _))).cast ?_ rfl
      simp [clearCode]
    | cons m ns => exact ih (by simp) hdims.pointee hcell hzero

theorem stores_clearCode (count : Nat) :
    stores (clearCode cell zero address count) = (List.range count).map fun j : Nat => (0, address + j) := by
  have hone : ∀ js : List Nat, stores (js.flatMap fun j : Nat => Emit.code [.ldc cell zero, .str cell 0 (address + j)]) =
      js.map fun j : Nat => (0, address + j) := by
    intro js
    induction js with
    | nil => rfl
    | cons j js ih => simpa [stores, Emit.code] using ih
  exact hone _

theorem nodup_stores_clearCode (count : Nat) : (stores (clearCode cell zero address count)).Nodup := by
  rw [stores_clearCode]
  refine List.Nodup.map (fun i j h => ?_) List.nodup_range
  have := (Prod.mk.inj h).2
  omega

theorem mem_stores_clearCode {w : Int × Int} : w ∈ stores (clearCode cell zero address ns.prod) ↔
    ∃ vs, InRange ns vs ∧ w = (0, address + rowMajor ns vs) := by
  rw [stores_clearCode, List.mem_map]
  constructor
  · rintro ⟨j, hj, rfl⟩
    obtain ⟨vs, hvs, heq⟩ := exists_rowMajor ns (Int.natCast_nonneg j) (Int.ofNat_lt.2 (List.mem_range.1 hj))
    exact ⟨vs, hvs, by rw [heq]⟩
  · rintro ⟨vs, hvs, rfl⟩
    have hnonneg := rowMajor_nonneg hvs
    have hlt := rowMajor_lt hvs
    refine ⟨(rowMajor ns vs).toNat, List.mem_range.2 (by omega), ?_⟩
    rw [Int.toNat_of_nonneg hnonneg]

/-- The declaration of an array without an initialiser clears it. -/
theorem emits_declarator {id : Nat} {head : DeclaratorHead} {o : Option ParseTree} {cs : List Node} {setting : Setting}
    {v : Nat} (hns : ns ≠ []) (hdims : t.HasDimensions ns)
    (hcell : cellOf (CType.pointee^[ns.length] t) = .ok cell) (hzero : zeroOf (CType.pointee^[ns.length] t) = .ok zero)
    (htype : Node.declaratorType (setting.above.head?.map Node.kind) head = .ok t) (hsymbol : head.symbol = some v)
    (haddress : (T.symbol v).address = some address) (hcs : ∀ c ∈ cs, c.kind.isInitializerList = false) :
    Emits ((coder (.mk id (.declarator head) o cs)).run setting) T k
      (clearCode cell zero (address + frameOffset) ns.prod) T k := by
  have hnone : (coders cs).filter (·.node.kind.isInitializerList) = [] := by
    simpa [coders_eq, List.filter_eq_nil_iff] using hcs
  obtain ⟨n, rest, rfl⟩ := List.exists_cons_of_ne_nil hns
  have hlength : (t.dimensions?.getD []).length = (n :: rest).length := by rw [hdims]; simp
  change Emits (declarator _ head (coders cs) setting) T k _ T k
  unfold declarator
  refine emits_lift htype (emits_lift (CType.isArray_of_dimensions hdims) ?_)
  simp only [hnone, List.getLast?_nil, if_true, hsymbol, hlength]
  exact emits_offsetOf haddress (emits_clearArray hns hdims hcell hzero)

end

/-! ## Arrays -/

/-- The elements of an array variable are its cells in row-major order: the code of a subscript for its address
leads to the element without a fault, each cell of the variable is that of one element, and the declaration stores
to each of them once. -/
theorem subscripts_rowMajor {T : SymbolTable} {v : Nat} {level address : Int} {t : CType} {ns : List Nat}
    (hns : ns ≠ []) (hdims : t.HasDimensions ns) (hplain : (CType.pointee^[ns.length] t).IsPlain)
    (hlevel : T.levelOf v = some level) (haddress : (T.symbol v).address = some address) :
    (∀ id x o k is lss k', IndexCodes T k is lss k' → is.length = ns.length →
      ∃ ls, UsedCode true T (subscripts (.mk id (.name x (some t) (some v)) o []) is) k ls k' ∧
        ∀ code j (c c' : Machine.Config) vs frame, At code j ls → c.frame? level = some frame →
          IndexRuns code c lss vs c' → InRange ns vs →
          Reach code j c (j + size ls)
            { c' with stack := .address (frame + (address + Emit.frameOffset) + rowMajor ns vs) :: c.stack }) ∧
    (∃ size, t.size = .ok size ∧ ∀ a, Set.BijOn (fun vs => a + rowMajor ns vs) {vs | InRange ns vs} (Set.Ico a (a + size))) ∧
    (∀ id head o cs setting k, head.symbol = some v → (∀ c ∈ cs, c.kind.isInitializerList = false) →
      Node.declaratorType (setting.above.head?.map Node.kind) head = .ok t →
      ∃ ls, Emits ((Emit.coder (.mk id (.declarator head) o cs)).run setting) T k ls T k ∧ (stores ls).Nodup ∧
        ∀ w, w ∈ stores ls ↔ ∃ vs, InRange ns vs ∧ w = (0, address + Emit.frameOffset + rowMajor ns vs)) := by
  refine ⟨fun id x o k is lss k' his hlength => ?_, ⟨_, hdims.size, rowMajor_bijOn ns⟩,
    fun id head o cs setting k hsymbol hcs htype => ?_⟩
  · refine ⟨_, usedCode_subscripts his hlength.le Node.hasType_name hdims (usedCode_name_address hlevel haddress), ?_⟩
    intro code j c c' vs frame hat hframe hruns hrange
    have hbase : Reach code j c (j + 1) (c.pushed (.address (frame + (address + Emit.frameOffset)))) :=
      Reach.act hat.left (by simp [hframe])
    have := hbase.trans (reach_subscripts hruns hrange (hat.right.cast (by simp)))
    simpa [Nat.add_assoc] using this
  · obtain ⟨cell, zero, hcell, hzero⟩ := hplain.zero
    exact ⟨_, emits_declarator hns hdims hcell hzero htype hsymbol haddress hcs, nodup_stores_clearCode _,
      fun w => mem_stores_clearCode⟩

theorem pushes_ldc (code : List Line) (c : Machine.Config) (v : Int) : Pushes code (Emit.code [.ldc .int (.number v)]) c v c.mem := by
  intro k ws hat
  exact Reach.act hat (by simp)

/-- The table of `int grid[2][3];`. -/
def gridTable : SymbolTable where
  scopes := #[{ symbols := #[(some "grid", 0)] }]
  symbols := #[.object { name := some "grid", node := 0, position := (0, 0), byDeclarator := true, type := gridType, address := some 0 }]
where
  gridType : CType := .declared .int false [⟨.length 3, false⟩, ⟨.length 2, false⟩] false

/-- The code of `grid[1][2]` leaves the address of the last cell. -/
theorem subscripts_rowMajor_grid : ∃ ls,
    UsedCode true gridTable (subscripts (.mk 0 (.name "grid" (some gridTable.gridType) (some 0)) none [])
      [⟨1, none, .mk 2 (.integer 1) none []⟩, ⟨3, none, .mk 4 (.integer 2) none []⟩]) 0 ls 0 ∧
    ∀ code j (c : Machine.Config), At code j ls →
      Reach code j c (j + size ls) { c with stack := .address (c.mp + 5 + 5) :: c.stack } := by
  have hlevel : gridTable.levelOf 0 = some 0 := by decide +kernel
  have hdims : gridTable.gridType.HasDimensions [2, 3] := rfl
  obtain ⟨hcode, -⟩ := subscripts_rowMajor (by simp) hdims (.inr (.inl rfl)) hlevel rfl
  have hindices : IndexCodes gridTable 0 [⟨1, none, .mk 2 (.integer 1) none []⟩, ⟨3, none, .mk 4 (.integer 2) none []⟩] _ 0 :=
    .cons (usedCode_integer 2 none 1) (.cons (usedCode_integer 4 none 2) .nil)
  obtain ⟨ls, hls, hruns⟩ := hcode 0 "grid" none 0 _ _ 0 hindices rfl
  refine ⟨ls, hls, fun code j c hat => ?_⟩
  exact hruns code j c c [1, 2] c.mp hat (by simp) (.cons (pushes_ldc code c 1) (.cons (pushes_ldc code c 2) .nil))
    (.cons (by decide) (.cons (by decide) .nil))

end MiniC
