import Mathlib.Data.List.Forall2
import MiniC.Proofs.Code.Operands
import MiniC.Proofs.IntLang.Resolving

/-!
# Making the code of expressions

From a tree whose names were resolved, the code maker gives the code that `Expr.code` describes, without a fault. The
table is replayed once more; in `Generating` no variable of a function is declared, so that the name of a function is
never hidden.
-/

namespace MiniC

open Emit

variable {n p : Node} {id i' : Nat} {op : ArithOp} {o : Option ParseTree} {type : Option CType} {symbol : Option Nat}
  {above : List Node} {setting : Setting}

/-! ## Types -/

namespace CType.IsInt

variable {t : CType} (h : t.IsInt)

include h

theorem eq : ∃ isValue const, t = declared .int const [] isValue := by
  obtain ⟨base, isValue, layers⟩ := t
  obtain ⟨rfl, const, rfl⟩ := h
  exact ⟨isValue, const, rfl⟩

theorem asValue : ∃ u, t.asValue = .ok u ∧ u.IsInt := by
  obtain ⟨isValue, const, rfl⟩ := h.eq
  cases isValue
  · exact ⟨_, rfl, rfl, const, rfl⟩
  · exact ⟨_, rfl, rfl, const, rfl⟩

theorem isPointer : t.isPointer = .ok false := by
  obtain ⟨isValue, const, rfl⟩ := h.eq
  rfl

theorem isArray : t.isArray = .ok false := by
  obtain ⟨isValue, const, rfl⟩ := h.eq
  rfl

theorem agrees_void : t.agrees .void = .ok false := by
  obtain ⟨isValue, const, rfl⟩ := h.eq
  rfl

theorem cellOf : Emit.cellOf t = .ok .int := by
  obtain ⟨isValue, const, rfl⟩ := h.eq
  rfl

theorem depth : t.depth = 0 := by
  obtain ⟨isValue, const, rfl⟩ := h.eq
  rfl

end CType.IsInt

/-- The node is an expression of type `int`. -/
def Node.IsInt (n : Node) : Prop := ∀ around, ∃ t, n.typeOf? around = .ok (some t) ∧ t.IsInt

theorem Node.IsInt.exprType (h : n.IsInt) : ∃ t, n.exprType = .ok t ∧ t.IsInt := by
  obtain ⟨t, ht, hint⟩ := h none
  exact ⟨t, by rw [Node.exprType, Node.typeOf, ht]; rfl, hint⟩

theorem Node.isInt_arith {l r : Node} (hl : l.IsInt) (hr : r.IsInt) : (Node.mk id (.arith op) o [l, r]).IsInt := by
  intro around
  obtain ⟨t, ht, htint⟩ := hl (some (.arith op))
  obtain ⟨u, hu, huint⟩ := hr (some (.arith op))
  obtain ⟨w, hw, hwint⟩ := htint.asValue
  refine ⟨w, ?_, hwint⟩
  simp [typeOf?, typesOf, ht, hu, required, huint.isPointer, hw, pure, Except.pure, bind, Except.bind, Functor.map, Except.map]

/-- The type of a choice and of a comma is that of the second part. -/
theorem Node.isInt_of_second {kind : Kind} {a b : Node} {rest : List Node} (hkind : kind = .comma ∨ kind = .conditional)
    (hb : b.IsInt) : (Node.mk id kind o (a :: b :: rest)).IsInt := by
  intro around
  obtain ⟨t, ht, htint⟩ := hb (some kind)
  obtain ⟨w, hw, hwint⟩ := htint.asValue
  refine ⟨w, ?_, hwint⟩
  obtain rfl | rfl := hkind <;>
    simp [typeOf?, typesOf, ht, required, hw, pure, Except.pure, bind, Except.bind, Functor.map, Except.map]

theorem Node.IsInt.cell (h : n.IsInt) : Emit.cell (coder n) = .ok .int := by
  obtain ⟨t, ht, hint⟩ := h.exprType
  rw [Emit.cell, Emit.typeOf_coder, ht]
  exact hint.cellOf

namespace IntLang

open SymbolTable

section

variable {T t t' : SymbolTable} {pl : Place} {ns : List Node} {es : List Expr}

theorem isInt_name {x : String} (id : Nat) (o : Option ParseTree) (hok : Resolved T pl (.name x type symbol)) :
    (Node.mk id (.name x type symbol) o []).IsInt := by
  obtain ⟨type, v, w, rfl, hint, -⟩ := hok
  exact fun _ => ⟨type, rfl, hint⟩

theorem Exprs.isInt (h : Exprs (Resolved T pl) ns es) : ∀ n ∈ ns, n.IsInt := by
  induction h with
  | nil => simp
  | cons _ _ ih ih' => exact List.forall_mem_cons.2 ⟨ih _ (by simp), ih'⟩
  | int | not | compare | logic => exact List.forall_mem_singleton.2 fun _ => ⟨.int, rfl, rfl, false, rfl⟩
  | var hok => exact List.forall_mem_singleton.2 (isInt_name _ _ hok)
  | step up hok =>
    obtain ⟨t, v, w, rfl, ht, -⟩ := hok
    exact List.forall_mem_singleton.2 fun _ => ⟨t, rfl, ht⟩
  | assign hok _ _ =>
    obtain ⟨t, v, w, rfl, ht, -⟩ := hok
    exact List.forall_mem_singleton.2 fun _ => ⟨t, rfl, ht⟩
  | call hok _ _ =>
    obtain ⟨c, rfl, -, -, hc, -⟩ := hok _ rfl
    obtain ⟨u, hu, hint⟩ := hc.asValue
    exact List.forall_mem_singleton.2 fun _ => ⟨u, by simp [Node.typeOf?, hu], hint⟩
  | plus _ ih | minus _ ih =>
    refine List.forall_mem_singleton.2 fun _ => ?_
    obtain ⟨t, ht, hint⟩ := List.forall_mem_singleton.1 ih (some (.unary _ _))
    exact ⟨t, ht, hint⟩
  | arith _ ih =>
    simp only [List.forall_mem_cons] at ih ⊢
    exact ⟨Node.isInt_arith ih.1 ih.2.1, by simp⟩
  | comma _ ih =>
    simp only [List.forall_mem_cons] at ih ⊢
    exact ⟨Node.isInt_of_second (.inl rfl) ih.2.1, by simp⟩
  | cond _ ih =>
    simp only [List.forall_mem_cons] at ih ⊢
    exact ⟨Node.isInt_of_second (.inr rfl) ih.2.1, by simp⟩

/-! ## Values that are not used -/

/-- Whether the value of an expression is used depends on what stands around it. -/
theorem isDropped_eq (hn : n.IsInt) (h : p.kind.isExpression = false) :
    isDropped n (p :: above) =
      match p.kind with
      | .initializerList _ => .ok false
      | .forLoop .. => .ok (p.header.iteration.any (·.id == n.id))
      | .ifStmt | .whileLoop | .doWhile | .returnStmt | .arguments | .declarator _ => .ok false
      | .statement => .ok true
      | _ => .error (.illegal "don't know if expression result should be cleaned up") := by
  obtain ⟨type, htype, hint⟩ := hn.exprType
  simp only [isDropped, h, Bool.false_eq_true, if_false, htype, hint.agrees_void, bind, Except.bind]
  split <;> simp_all [pure, Except.pure]
  rfl

/-- What uses the value of an expression and is no expression. -/
def usesValue : Kind → Bool
  | .initializerList _ | .ifStmt | .whileLoop | .returnStmt | .arguments => true
  | _ => false

theorem isDropped_used (hn : n.IsInt) (h : usesValue p.kind = true) : isDropped n (p :: above) = .ok false := by
  obtain ⟨id, kind, o, cs⟩ := p
  cases kind with
  | initializerList | ifStmt | whileLoop | returnStmt | arguments => exact isDropped_eq hn rfl
  | _ => cases h

/-- The code of an expression whose value is used or not. -/
def Expr.made (env : Env) (e : Expr) (n : Nat) (drop : Bool) : List Line :=
  if drop then e.dropped env n else e.code env n

theorem emits_dropping {make : EmitM Unit} {i : Nat} {e : Expr} {drop : Bool} (hn : n.IsInt)
    (hdrop : isDropped n setting.above = .ok drop)
    (he : e.dropped pl.env i = Emit.code [.ldc .address (.number 0)] ++ e.code pl.env i ++ Emit.code [.sto .int])
    (h : Emits make t i (e.code pl.env i) t i') :
    Emits (dropping n setting make) t i (e.made pl.env i drop) t i' := by
  cases drop with
  | false => exact emits_used hdrop h
  | true =>
    obtain ⟨type, htype, hint⟩ := hn.exprType
    have hcell : (n.exprType >>= Emit.cellOf) = .ok .int := by rw [htype]; exact hint.cellOf
    unfold dropping
    refine emits_lift hdrop ?_
    refine Emits.cast ((emits_instr _).seq (h.seq (emits_lift hdrop (emits_lift hcell (emits_instr _))))) ?_ rfl
    simp [Expr.made, he]

/-! ## The table -/

/-- The table while code is made in a scope: the variables of functions are not declared. -/
structure Generating (T : SymbolTable) (s n : Nat) (t : SymbolTable) : Prop where
  replays : Replays T s n t
  root : 0 ∈ around T s
  hidden : ∀ i, 0 < i → i < n → ∀ e ∈ T.entries i, ∀ o, t.symbol e.2 = .object o → o.seen = 0

section

variable {s k v i : Nat} {x f : String}

/-- The name of a function stands for it wherever code is made. -/
theorem Generating.lookup (hT : IntBuilt T) (h : Generating T s k t) (hf : Defines T f) :
    ∃ g, (t.lookup (some f) 1).map t.symbol = some (.function g) ∧ g.depth = 1 := by
  obtain ⟨v, g, hv, hg⟩ := hf
  -- What a lookup finds in a scope around is a function: its variables are hidden, and at the root there is one.
  have hscope : ∀ i ∈ around T s, ∀ u, t.lookupIn i (some f) 1 = some u → ∃ g, t.symbol u = .function g ∧ g.depth = 1 := by
    intro i hi u hu
    obtain ⟨hentry, hvisible⟩ := lookupIn_cases h.replays hu
    cases hsymbol : t.symbol u with
    | function g' =>
      have hT' := h.replays.symbol_eq u
      rw [hsymbol] at hT'
      exact ⟨g', rfl, (hT.function_eq u g' hT'.symm).depth⟩
    | object o =>
      rw [hsymbol] at hvisible
      rcases Nat.eq_zero_or_pos i with rfl | hpos
      · rw [hv] at hentry
        cases hentry
        rw [h.replays.function_eq hg] at hsymbol
        cases hsymbol
      · have hlt : i < k := Nat.lt_of_le_of_lt (le_of_mem_around hT.toBuilt hi) h.replays.scope_lt
        have hseen := h.hidden i hpos hlt _ (mem_of_named? hentry) o hsymbol
        simp [Symbol.isVisible, hseen] at hvisible
  have hroot : t.lookupIn 0 (some f) 1 = some v := by
    rw [lookupIn_eq, h.replays.named?, hv]
    simp [h.replays.function_eq hg, Symbol.isVisible]
  have hsome : ((around T s).findSome? fun i => t.lookupIn i (some f) 1).isSome = true :=
    List.findSome?_isSome_iff.2 ⟨0, h.root, by simp [hroot]⟩
  obtain ⟨u, hu⟩ := Option.isSome_iff_exists.1 hsome
  obtain ⟨i, hi, hl⟩ := List.exists_of_findSome?_eq_some hu
  obtain ⟨g', hg', hdepth⟩ := hscope i hi u hl
  refine ⟨g', ?_, hdepth⟩
  rw [SymbolTable.lookup, h.replays.chain]
  change Option.map t.symbol ((around T s).findSome? _) = _
  rw [hu, Option.map_some, hg']

theorem access_eq {w : Var} (hv : Stands T pl x v w) (make : Int → Int → Instr) :
    access pl.env x make = Emit.code [make (pl.env.level w) (w.index + frameOffset)] := by
  simp [access, hv.find, Var.offset_eq, Emit.code]

theorem Stands.generated {w : Var} (hv : Stands T pl x v w) (h : Replays T pl.scope k t) :
    t.levelOf v = some (pl.env.level w) ∧ (t.symbol v).address = some (w.index : Int) :=
  ⟨(levelOf_eq h v).trans hv.level, (h.address v).trans hv.address⟩

/-! ## Expressions -/

def Makes (t : SymbolTable) (pl : Place) (n : Node) (e : Expr) : Prop :=
  ∀ i setting drop, setting.address = false → isDropped n setting.above = .ok drop →
    Emits ((coder n).run setting) t i (e.made pl.env i drop) t (i + e.labels)

variable {setting : Setting} {n l r : Node} {e a b c : Expr}

theorem Makes.used (h : Makes t pl n e) (i : Nat) : UsedCode false t n i (e.code pl.env i) (i + e.labels) :=
  fun setting haddress hdrop => h i setting false haddress hdrop

/-- The address of the variable that is assigned to. -/
theorem usedCode_target (h : Replays T pl.scope k t) (hok : Resolved T pl (.name x type symbol)) :
    UsedCode true t (.mk id (.name x type symbol) o []) i (access pl.env x fun level offset => .lda (some level) offset) i := by
  obtain ⟨type, v, w, rfl, -, rfl, hv⟩ := hok
  obtain ⟨hlevel, haddress⟩ := hv.generated h
  rw [access_eq hv]
  exact usedCode_name_address hlevel haddress

theorem arguments_cons (c : Coder) (cs : List Coder) : Emit.arguments (c :: cs) setting =
    (if c.node.kind.isName then do
      let type ← lift (Emit.typeOf c)
      c.run (if 0 < type.depth then { setting with address := true } else setting)
    else c.run setting) >>= fun _ => Emit.arguments cs setting := by
  simp only [Emit.arguments, List.forIn_cons]
  split <;> simp

theorem emits_arguments (h : List.Forall₂ (Makes t pl) ns es) (hint : ∀ n ∈ ns, n.IsInt) (haddr : setting.address = false)
    {p : Node} {rest : List Node} (habove : setting.above = p :: rest) (hp : p.kind = .arguments) :
    Emits (Emit.arguments (coders ns) setting) t i (codeAll pl.env es i) t (i + labelsAll es) := by
  induction h generalizing i with
  | nil => exact emits_pure
  | @cons n e ns es he _ ih =>
    have hn := hint n (List.mem_cons_self ..)
    obtain ⟨type, htype, htint⟩ := hn.exprType
    have hdrop : isDropped n setting.above = .ok false := by
      rw [habove]
      exact isDropped_used hn (by rw [hp]; rfl)
    have hone : Emits ((coder n).run setting) t i (e.code pl.env i) t (i + e.labels) :=
      he i setting false haddr hdrop
    rw [coders, arguments_cons]
    have hrest : Emits (Emit.arguments (coders ns) setting) t (i + e.labels) (codeAll pl.env es (i + e.labels)) t
      (i + e.labels + labelsAll es) := ih fun m hm => hint m (List.mem_cons_of_mem _ hm)
    refine Emits.cast (Emits.seq ?_ hrest) rfl (Nat.add_assoc ..)
    split
    · refine emits_lift ((Emit.typeOf_coder n).trans htype) ?_
      simpa [htint.depth] using hone
    · exact hone

theorem emits_call {callee : Option Callee} {pieces : Option (List Piece)} (hT : IntBuilt T)
    (hg : Generating T pl.scope k t) (hok : Resolved T pl (.call (some f) callee pieces))
    (h : List.Forall₂ (Makes t pl) ns es) (hint : ∀ n ∈ ns, n.IsInt) (haddr : setting.address = false) :
    Emits (Emit.call (some f) callee pieces (coders [.mk id .arguments o ns]) setting) t i
      ((Expr.call f es).code pl.env i) t (i + (Expr.call f es).labels) := by
  obtain ⟨c, rfl, rfl, hlibrary, -, hf⟩ := hok f rfl
  obtain ⟨g, hlookup, hdepth⟩ := hg.lookup hT hf
  simp only [Emit.call, hlibrary, Bool.false_eq_true, if_false]
  refine emits_get fun code => ?_
  simp only [hlookup, hdepth]
  have hlist : Emits (Emit.arguments (coders ns) { setting with above := .mk id .arguments o ns :: setting.above })
      t i (codeAll pl.env es i) t (i + labelsAll es) := emits_arguments h hint haddr rfl rfl
  have hargs : Emits (runAll setting (coders [.mk id .arguments o ns])) t i (codeAll pl.env es i) t
      (i + labelsAll es) := (hlist.seq emits_pure).cast (List.append_nil _) rfl
  refine Emits.cast ((emits_instr _).seq (hargs.seq (emits_lift rfl (emits_instr _)))) ?_ rfl
  simp [Expr.code, h.length_eq]

/-- The code of an expression is that of its maker, with its value stored away if it is not used. -/
theorem makes_dropping {make : Setting → EmitM Unit} (h : Exprs (Resolved T pl) [n] [e])
    (hmake : ∀ i, MadeCode make false t n i (e.code pl.env i) (i + e.labels))
    (hrun : ∀ setting, (coder n).run setting = dropping n setting (make { setting with above := n :: setting.above }) := by
      intro; rfl)
    (hdrop : ∀ i, e.dropped pl.env i =
      Emit.code [.ldc .address (.number 0)] ++ e.code pl.env i ++ Emit.code [.sto .int] := by intro; rfl) :
    List.Forall₂ (Makes t pl) [n] [e] := by
  refine .cons ?_ .nil
  rintro i ⟨address, again, after, above⟩ drop rfl hdropped
  rw [hrun]
  exact emits_dropping (h.isInt n (List.mem_singleton_self n)) hdropped (hdrop i) (hmake i again after above)

/-- From a tree whose names were resolved, the code of each expression is made. -/
theorem makes_exprs (hT : IntBuilt T) (hg : Generating T pl.scope k t) (h : Exprs (Resolved T pl) ns es) :
    List.Forall₂ (Makes t pl) ns es := by
  induction h with
  | nil => exact .nil
  | cons _ _ ih ih' =>
    cases ih with
    | cons he _ => exact .cons he ih'
  | int => exact makes_dropping (T := T) .int fun i => madeCode_integer
  | @var id o x type symbol hok =>
    have hvar : Exprs (Resolved T pl) [.mk id (.name x type symbol) o []] [.var x] := .var hok
    obtain ⟨type, v, w, rfl, hint, rfl, hv⟩ := hok
    obtain ⟨hlevel, haddress⟩ := hv.generated hg.replays
    have hcode := access_eq hv fun level offset => .lod .int (some level) offset
    exact makes_dropping hvar fun i => (madeCode_name hlevel haddress hint.isArray hint.cellOf).cast hcode.symm rfl
  | call hok hes ih => exact makes_dropping (.call hok hes) fun i _ _ _ => emits_call hT hg hok ih hes.isInt rfl
  | plus he ih =>
    obtain ⟨h, -⟩ := List.forall₂_cons.1 ih
    obtain ⟨type, htype, hint⟩ := (he.isInt _ (List.mem_singleton_self _)).exprType
    exact makes_dropping (.plus he) fun i => (madeCode_sign (h.used i) htype hint.cellOf rfl).cast (List.append_nil _) rfl
  | minus he ih =>
    obtain ⟨h, -⟩ := List.forall₂_cons.1 ih
    obtain ⟨type, htype, hint⟩ := (he.isInt _ (List.mem_singleton_self _)).exprType
    exact makes_dropping (.minus he) fun i => madeCode_sign (h.used i) htype hint.cellOf rfl
  | step up hok =>
    obtain ⟨type', htype, hint⟩ := (isInt_name _ _ hok).exprType
    exact makes_dropping (.step up hok) fun i =>
      madeCode_step (usedCode_target hg.replays hok) htype hint.cellOf (.number hint.isPointer) up
  | not _ ih =>
    obtain ⟨h, -⟩ := List.forall₂_cons.1 ih
    refine .cons ?_ .nil
    rintro i ⟨address, again, after, above⟩ drop rfl -
    -- The value of a negation is left on the stack also where it is not used.
    refine Emits.cast (madeCode_not (h.used i) again after above) ?_ rfl
    cases drop <;> rfl
  | arith hes ih =>
    obtain ⟨hl, hr, -⟩ := by simpa only [List.forall₂_cons] using ih
    have hln := hes.isInt _ List.mem_cons_self
    obtain ⟨type, htype, hint⟩ := hln.exprType
    obtain ⟨type', htype', hint'⟩ := (hes.isInt _ (List.mem_cons_of_mem _ List.mem_cons_self)).exprType
    exact makes_dropping (.arith hes) fun i => (madeCode_arith (hl.used i) (hr.used _) htype htype' hint.isPointer
      hint'.isPointer hln.cell).cast rfl (Nat.add_assoc ..)
  | compare hes ih =>
    obtain ⟨hl, hr, -⟩ := by simpa only [List.forall₂_cons] using ih
    exact makes_dropping (.compare hes) fun i =>
      (madeCode_compare (hl.used i) (hr.used _) (hes.isInt _ List.mem_cons_self).cell).cast rfl (Nat.add_assoc ..)
  | logic hes ih =>
    obtain ⟨hl, hr, -⟩ := by simpa only [List.forall₂_cons] using ih
    exact makes_dropping (.logic hes) fun i => (madeCode_logic (hl.used i) (hr.used _)).cast rfl (Nat.add_assoc ..)
  | cond hes ih =>
    obtain ⟨hc, hl, hr, -⟩ := by simpa only [List.forall₂_cons] using ih
    exact makes_dropping (.cond hes) fun i => (madeCode_cond (hc.used _) (hes.isInt _ List.mem_cons_self).cell (hl.used _)
      (hr.used _)).cast rfl (by simp [Expr.labels, Nat.add_assoc])
  | comma hes ih =>
    obtain ⟨hl, hr, -⟩ := by simpa only [List.forall₂_cons] using ih
    obtain ⟨type, htype, hint⟩ := ((Exprs.comma hes).isInt _ (List.mem_singleton_self _)).exprType
    exact makes_dropping (.comma hes) fun i => (madeCode_comma (hl.used i) (hr.used _) (hes.isInt _ List.mem_cons_self).cell
      htype hint.agrees_void).cast rfl (Nat.add_assoc ..)
  | assign hok he ih =>
    obtain ⟨h, -⟩ := List.forall₂_cons.1 ih
    exact makes_dropping (.assign hok he) fun i =>
      madeCode_assign (usedCode_target hg.replays hok) (h.used i) (isInt_name _ _ hok).cell

end

end

end IntLang

end MiniC
