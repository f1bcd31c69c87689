import MiniC.Proofs.IntLang.Tree
import MiniC.Proofs.Pass.Quiet
import MiniC.Proofs.Scope.Growth

/-!
# Filling the table from the integer language

If the first pass finds no errors, each variable has got its number as a symbol and its address, and each scope its
number, as `Place` counts them. `Entered T` is what the pass makes true of the tree, where `T` is the table in the end.
-/

namespace MiniC

open Fill
open Symbol (isDefinite)

variable {name : Option String} {n : Node} {id : Nat} {o : Option ParseTree} {t : SymbolTable} {p : Program}

/-- A type of integers without pointers and arrays. -/
def CType.IsInt (t : CType) : Prop := t.base = .int ∧ ∃ const, t.layers = [⟨.scalar, const⟩]

/-- A function of the program with a body and an integer result. -/
structure FunctionSymbol.Plain (f : FunctionSymbol) : Prop where
  depth : f.depth = 1
  isLibrary : f.isLibrary = false
  seen : f.seen = none
  isDefinition : f.form.isDefinition = true
  type : f.type.IsInt

theorem CType.isInt_declared (const isValue : Bool) : (CType.declared .int const [] isValue).IsInt := ⟨rfl, const, rfl⟩

theorem CType.IsInt.size {t : CType} (h : t.IsInt) : t.size = .ok 1 := by
  obtain ⟨base, isValue, layers⟩ := t
  obtain ⟨-, const, rfl⟩ := h
  rfl

namespace SymbolTable

variable {t t' : SymbolTable} {s frame : Nat} {size : Int} {x : Symbol}

/-- A table that was filled from a program with integers only. -/
structure IntBuilt (t : SymbolTable) : Prop extends Built t where
  function_eq : ∀ v f, t.symbol v = .function f → f.Plain
  object_eq : ∀ s e o, e ∈ t.entries s → t.symbol e.2 = .object o → o.type.IsInt ∧ ∃ i : Nat, o.address = some (i : Int)
  strings_eq : t.strings = #[]

theorem IntBuilt.isDefinite (h : IntBuilt t) (v : Nat) : (t.symbol v).isDefinite = true := by
  cases hv : t.symbol v with
  | object o => rfl
  | function f => exact (h.function_eq v f hv).isDefinition

theorem IntBuilt.enters (hb : IntBuilt t) (h : Enters t s frame size x t')
    (hfun : ∀ f, x = .function f → s = 0 ∧ f.Plain)
    (hobj : ∀ o, x = .object o → o.seen = 0 ∧ o.type.IsInt ∧ ∃ i : Nat, o.address = some (i : Int)) : IntBuilt t' := by
  have hlast : t'.symbol t.symbols.size = x := by rw [h.symbol_eq, if_pos rfl]
  refine ⟨h.built hb.toBuilt (fun f hf => ⟨(hfun f hf).1, (hfun f hf).2.seen⟩) fun o ho => (hobj o ho).1, ?_, ?_, ?_⟩
  · intro v f hf
    rw [h.symbol_eq] at hf
    split at hf
    · exact (hfun f hf).2
    · exact hb.function_eq v f hf
  · intro i e o he ho
    obtain he | ⟨rfl, rfl⟩ := h.mem_entries he
    · have := hb.entry_lt i e he
      rw [h.symbol_eq, if_neg (by omega)] at ho
      exact hb.object_eq i e o he ho
    · exact (hobj o (hlast ▸ ho)).2
  · rw [h.strings]
    exact hb.strings_eq

theorem IntBuilt.made (hb : IntBuilt t) (hs : s < t.scopes.size) (isFunction : Bool) (name : Option String) :
    IntBuilt (t.made s isFunction name) :=
  ⟨built_made hb.toBuilt hs, hb.function_eq, fun i => by rw [entries_made hs]; exact hb.object_eq i, hb.strings_eq⟩

theorem IntBuilt.shut (hb : IntBuilt t) (s : Nat) : IntBuilt (t.shut s) :=
  ⟨built_shut hb.toBuilt s, hb.function_eq, hb.object_eq, hb.strings_eq⟩

end SymbolTable

namespace IntLang

open SymbolTable

/-! ## What is entered -/

structure Declares (T : SymbolTable) (pl : Place) (x : String) (v : Nat) : Prop where
  entry : T.named? pl.scope (some x) = some v
  symbol : ∃ o, T.symbol v = .object o ∧ o.address = some (pl.env.next : Int) ∧ o.type.IsInt

structure Opens (T : SymbolTable) (pl : Place) (isFunction : Bool) : Prop where
  lt : pl.scopes < T.scopes.size
  above : (T.scope pl.scopes).above = pl.scope :: (T.scope pl.scope).above
  isFunction : (T.scope pl.scopes).isFunction = isFunction

/-- A name of the program stands for a function. -/
def Defines (T : SymbolTable) (f : String) : Prop := ∃ v g, T.named? 0 (some f) = some v ∧ T.symbol v = .function g

/-- What the first pass makes true of a node. -/
def Entered (T : SymbolTable) (pl : Place) : Kind → Prop
  | .declarator head => ∃ v, head.symbol = some v ∧ ∀ x, head.name = some x → Declares T pl x v
  | .parameter head => ∀ x, head.name = some x → ∃ v, Declares T pl x v
  | .statements | .forLoop .. => Opens T pl false
  | .breakStmt | .continueStmt => pl.loop = true
  | .function head => Opens T pl true ∧ ∀ f, head.name = some f → Defines T f
  | _ => True

/-- The table while the pass is at a place; the variables there are in a frame. -/
structure Filling (pl : Place) (frame : Nat) (t : SymbolTable) : Prop where
  built : IntBuilt t
  replaying : t.replaying = false
  current : t.current = some pl.scope
  scopes : t.scopes.size = pl.scopes
  scope_lt : pl.scope < pl.scopes
  frameOf : t.frameOf pl.scope = frame
  frame_lt : frame < pl.scopes
  cells : (t.scope frame).cells = pl.env.next
  depth : t.functionDepth = if pl.env.inside then 2 else 1

section

variable {pl pl' inner : Place} {frame frame' v : Nat} {t t' T : SymbolTable} {x : String} {s s' : PassState}
  {above ns ns' : List Node} {es : List Expr} {ok : Kind → Prop}

/-! ## Later tables -/

theorem Declares.extends (h : Declares t pl x v) (he : Extends isDefinite t T) : Declares T pl x v := by
  obtain ⟨o, ho, h'⟩ := h.symbol
  obtain ⟨hv, hsymbol⟩ := he.named_eq _ _ _ h.entry (by rw [ho]; rfl)
  exact ⟨hv, o, hsymbol.trans ho, h'⟩

theorem Defines.extends {f : String} (h : Defines t f) (hb : IntBuilt t) (he : Extends isDefinite t T) :
    Defines T f := by
  obtain ⟨v, g, hv, hg⟩ := h
  obtain ⟨hv', hsymbol⟩ := he.named_eq _ _ _ hv (hb.isDefinite v)
  exact ⟨v, g, hv', hsymbol.trans hg⟩

theorem opens_made {isFunction : Bool} (h : Filling pl frame t)
    (he : Extends isDefinite (t.made pl.scope isFunction name) T) : Opens T pl isFunction := by
  have hs : pl.scope < t.scopes.size := h.scopes ▸ h.scope_lt
  constructor
  case lt => have := he.scopes_le; rw [size_made, h.scopes] at this; omega
  case above =>
    rw [← h.scopes, he.above_eq _ (by simp), he.above_eq _ (by simp; omega), above_made hs, above_made hs, if_pos rfl,
      if_neg (by omega)]
  case isFunction => rw [← h.scopes, he.isFunction_eq _ (by simp), scope_made hs, if_pos rfl]

/-! ## Steps -/

theorem Filling.declare {o : ObjectSymbol} (h : Filling pl frame t)
    (he : Enters t pl.scope frame 1 (.object { o with address := some (t.cellsOf pl.scope) }) t')
    (hname : o.name = some x) (htype : o.type.IsInt) (hseen : o.seen = 0) (hnew : t.named? pl.scope (some x) = none) :
    Filling (pl.declare x) frame t' ∧ Grown frame t t' ∧ Declares t' pl x t.symbols.size := by
  have hg := he.grown h.built.toBuilt fun v hv => by simp [Symbol.name, hname, hnew] at hv
  have hscope : pl.scope < t.scopes.size := h.scopes ▸ h.scope_lt
  have haddr : t.cellsOf pl.scope = pl.env.next := by simp [SymbolTable.cellsOf, h.frameOf, h.cells]
  refine ⟨?_, hg, ?_, ?_⟩
  · constructor
    case built =>
      refine h.built.enters he (fun f hf => by cases hf) fun o' ho' => ?_
      cases ho'
      exact ⟨hseen, htype, pl.env.next, congrArg some haddr⟩
    case replaying => rw [he.replaying]; exact h.replaying
    case current => rw [he.current]; exact h.current
    case scopes => rw [he.scopes]; exact h.scopes
    case scope_lt => exact h.scope_lt
    case frameOf => exact (hg.toExtends.frameOf h.built.toBuilt hscope).trans h.frameOf
    case frame_lt => exact h.frame_lt
    case cells =>
      rw [he.cells, if_pos rfl, h.cells]
      simp [Place.declare]
    case depth => rw [he.functionDepth, h.depth]; simp [Place.declare]
  · rw [he.named?, if_pos ⟨rfl, hname.symm⟩]
  · exact ⟨{ o with address := some (t.cellsOf pl.scope) }, by rw [he.symbol_eq, if_pos rfl], congrArg some haddr, htype⟩

/-- A block is entered. -/
theorem Filling.opened (h : Filling pl frame t) (hin : pl.env.inside = true) :
    Filling pl.opened frame (t.made pl.scope false none) := by
  have hscope : pl.scope < t.scopes.size := h.scopes ▸ h.scope_lt
  have hframe : frame < t.scopes.size := h.scopes ▸ h.frame_lt
  constructor
  case built => exact h.built.made hscope _ _
  case replaying => exact h.replaying
  case current => exact congrArg some h.scopes
  case scopes => rw [size_made, h.scopes]; rfl
  case scope_lt => exact Nat.lt_succ_self _
  case frameOf =>
    have : (t.made pl.scope false none).frameOf t.scopes.size = t.frameOf pl.scope := frameOf_made_block h.built.toBuilt hscope
    rw [h.scopes] at this
    exact this.trans h.frameOf
  case frame_lt => exact Nat.lt_succ_of_lt h.frame_lt
  case cells =>
    rw [scope_made hscope, if_neg (by omega)]
    split <;> exact h.cells
  case depth => simpa [SymbolTable.made, hin, Place.opened] using h.depth

/-- A block is left. -/
theorem Filling.closed (h : Filling pl frame t) (hin : pl.env.inside = true)
    (hg : Grown frame (t.made pl.scope false none) t') (h' : Filling inner frame t') (hinner : inner.env.inside = true) :
    Filling (pl.closed inner) frame (t'.shut pl.scopes) ∧ Grown frame t (t'.shut pl.scopes) ∧
      ∀ T, Extends isDefinite (t'.shut pl.scopes) T →
        Opens T pl false ∧ Extends isDefinite t' T := by
  have hscope : pl.scope < t.scopes.size := h.scopes ▸ h.scope_lt
  have hall : Grown frame t t' := (grown_made hscope).trans hg
  have hlt : pl.scopes ≤ inner.scopes := h.scopes ▸ h'.scopes ▸ hall.scopes_le
  have ho : Opens t' pl false := opens_made h hg.toExtends
  have hshut : Grown frame t' (t'.shut pl.scopes) := grown_shut t' _
  refine ⟨?_, hall.trans hshut, fun T hT => ?_⟩
  · constructor
    case built => exact h'.built.shut _
    case replaying => exact h'.replaying
    case current => simp [shut, ho.above, Place.closed]
    case scopes => exact h'.scopes
    case scope_lt => exact Nat.lt_of_lt_of_le h.scope_lt hlt
    case frameOf => exact (hall.toExtends.frameOf h.built.toBuilt hscope).trans h.frameOf
    case frame_lt => exact h'.frame_lt
    case cells => exact h'.cells
    case depth =>
      have := h'.depth
      simp only [hinner, if_true] at this
      simp only [shut, ho.isFunction, this, Place.closed]
      exact (if_pos hin).symm
  · have hT' := hshut.toExtends.trans hT
    exact ⟨opens_made h (hg.toExtends.trans hT'), hT'⟩

/-- The function is entered whose name is new. -/
theorem Filling.enter {g : FunctionSymbol} (h : Filling pl 0 t)
    (he : Enters t 0 0 0 (.function g) t') (hg : g.Plain) (hname : g.name = some x)
    (hnew : t.named? 0 (some x) = none) : Filling pl 0 t' ∧ Grown 0 t t' ∧ Defines t' x := by
  have hgrown := he.grown h.built.toBuilt fun v hv => by simp [Symbol.name, hname, hnew] at hv
  refine ⟨?_, hgrown, t.symbols.size, g, ?_, by rw [he.symbol_eq, if_pos rfl]⟩
  · constructor
    case built =>
      exact h.built.enters he (fun f hf => by cases hf; exact ⟨rfl, hg⟩) fun o ho => by cases ho
    case replaying => rw [he.replaying]; exact h.replaying
    case current => rw [he.current]; exact h.current
    case scopes => rw [he.scopes]; exact h.scopes
    case scope_lt => exact h.scope_lt
    case frameOf => exact (hgrown.toExtends.frameOf h.built.toBuilt (h.scopes ▸ h.scope_lt)).trans h.frameOf
    case frame_lt => exact h.frame_lt
    case cells => rw [he.cells, h.cells]; simp
    case depth => rw [he.functionDepth, h.depth]
  · rw [he.named?, if_pos ⟨rfl, hname.symm⟩]

/-- The body of a function is entered. -/
theorem Filling.function (h : Filling pl 0 t) (hout : pl.env.inside = false) :
    Filling pl.function pl.scopes (t.made pl.scope true name) := by
  have hscope : pl.scope < t.scopes.size := h.scopes ▸ h.scope_lt
  have hnew : (t.made pl.scope true name).scope pl.scopes =
      { name, isFunction := true, above := pl.scope :: (t.scope pl.scope).above } := by
    rw [scope_made hscope, if_pos h.scopes.symm]
  constructor
  case built => exact h.built.made hscope _ _
  case replaying => exact h.replaying
  case current => exact congrArg some h.scopes
  case scopes => rw [size_made, h.scopes]; rfl
  case scope_lt => exact Nat.lt_succ_self _
  case frameOf =>
    have : (t.made pl.scope true name).frameOf t.scopes.size = t.scopes.size := frameOf_made_function hscope
    rwa [h.scopes] at this
  case frame_lt => exact Nat.lt_succ_self _
  case cells => rw [hnew]; rfl
  case depth =>
    have := h.depth
    simp only [hout, Bool.false_eq_true, if_false] at this
    simp [SymbolTable.made, this, Place.function, Env.inside]

/-- The body of a function is left. -/
theorem Filling.returned (h : Filling pl 0 t) (hout : pl.env.inside = false)
    (hg : Grown pl.scopes (t.made pl.scope true name) t') (h' : Filling inner pl.scopes t')
    (hinner : inner.env.inside = true) :
    Filling (pl.returned inner) 0 (t'.shut pl.scopes) ∧ Grown 0 t (t'.shut pl.scopes) ∧
      ∀ T, Grown 0 (t'.shut pl.scopes) T →
        Opens T pl true ∧ Extends isDefinite t' T ∧ (T.scope pl.scopes).cells = inner.env.next := by
  have hscope : pl.scope < t.scopes.size := h.scopes ▸ h.scope_lt
  have hall : Grown pl.scopes t t' := (grown_made hscope).trans hg
  have hlt : pl.scopes < inner.scopes := h'.frame_lt
  have hpos : 0 < pl.scopes := h.frame_lt
  have ho : Opens t' pl true := opens_made h hg.toExtends
  have hshut : ∀ frame, Grown frame t' (t'.shut pl.scopes) := fun _ => grown_shut t' _
  refine ⟨?_, (hall.trans (hshut _)).of_le (Nat.le_of_eq h.scopes), fun T hT => ?_⟩
  · constructor
    case built => exact h'.built.shut _
    case replaying => exact h'.replaying
    case current => simp [shut, ho.above, Place.returned]
    case scopes => exact h'.scopes
    case scope_lt => exact Nat.lt_trans h.scope_lt hlt
    case frameOf => exact (hall.toExtends.frameOf h.built.toBuilt hscope).trans h.frameOf
    case frame_lt => exact Nat.lt_trans h.frame_lt hlt
    case cells => exact (hall.cells_eq 0 (h.scopes ▸ hpos) (by omega)).trans h.cells
    case depth =>
      have := h'.depth
      simp only [hinner, if_true] at this
      simp only [shut, ho.isFunction, if_true, this, Place.returned, hout]
      rfl
  · have hT' := (hshut 0).trans hT
    refine ⟨opens_made h (hg.toExtends.trans hT'.toExtends), hT'.toExtends, ?_⟩
    rw [hT'.cells_eq pl.scopes (h'.scopes ▸ hlt) (by omega), h'.cells]

/-! ## Declarations -/

/-- A visit that enters a variable and then visits the children of its node. -/
theorem fill_entering {type : CType} {byDeclarator : Bool} {n' : Node} {cs inside : List Node}
    {f : Option Nat → List Node → Node} (hf : Filling pl frame s.table) (htype : type.IsInt)
    (hq : Quiet (entering n above (some x) type byDeclarator cs inside f) s n' s') :
    ∃ s1 v cs', n' = f (some v) cs' ∧ Filling (pl.declare x) frame s1.table ∧ Grown frame s.table s1.table ∧
      Declares s1.table pl x v ∧ Quiet (visitAll inside cs) s1 cs' s' := by
  obtain ⟨w, s1, cs', henter, rfl, hcs⟩ := quiet_entering hq
  obtain ⟨position, s2, hpos, hdecl⟩ := Quiet.bind henter
  obtain ⟨-, rfl⟩ := runs_pass_lift.1 hpos.runs
  obtain ⟨hnew, v, hr, hrun⟩ := quiet_declare hf.current rfl (fun v _ => conflict_object _ _) hdecl
  obtain ⟨rfl, -⟩ := Prod.mk.inj hr
  obtain ⟨t, ht, rfl⟩ := runs_onTable.1 hrun
  have hscope : pl.scope < s2.table.scopes.size := hf.scopes ▸ hf.scope_lt
  have hframe : s2.table.frameOf pl.scope < s2.table.scopes.size := by rw [hf.frameOf, hf.scopes]; exact hf.frame_lt
  obtain ⟨rfl, size, hsize, he⟩ := runs_insertObject hf.current hscope hframe ht
  obtain rfl : 1 = size := Except.ok.inj (htype.size.symm.trans hsize)
  rw [hf.frameOf] at he
  obtain ⟨hf', hg, hd⟩ := hf.declare he rfl htype rfl hnew
  exact ⟨_, _, cs', rfl, hf', hg, hd, hcs⟩

theorem fill_function {head : FunctionHead} {n : Node} {f : String}
    (hf : Filling pl 0 s.table) (hroot : pl.scope = 0) (hout : pl.env.inside = false)
    (hform : head.form.isDefinition = true) (hspec : head.spec.base = .int) (hlayers : head.layers = [])
    (hname : head.name = some f) (hq : Quiet (enterFunction n above head) s false s') :
    s.table.named? 0 (some f) = none ∧ Filling pl 0 s'.table ∧ Grown 0 s.table s'.table ∧
      Defines s'.table f := by
  obtain ⟨position, s1, hpos, hrest⟩ := hq.bind
  obtain ⟨-, rfl⟩ := runs_pass_lift.1 hpos.runs
  obtain ⟨r, s2, hdecl, hlast⟩ := hrest.bind
  obtain ⟨-, rfl⟩ := runs_pure.1 hlast.runs
  have hcurrent := hf.current
  rw [hroot] at hcurrent
  have hsymbol : (functionSymbol n head position id).name = some f := hname
  obtain ⟨hnew, v, rfl, hrun⟩ := quiet_declare hcurrent hsymbol (fun v _ => conflict_function hform fun g hg =>
    (hf.built.function_eq v g hg).isDefinition) hdecl
  obtain ⟨t, ht, rfl⟩ := runs_onTable.1 hrun
  obtain ⟨rfl, he⟩ := runs_insertFunction hcurrent (hf.scopes ▸ hf.frame_lt) ht
  obtain ⟨hf', hg, hd⟩ := hf.enter he ⟨by simp [hf.depth, hout], rfl, rfl, hform, by
    rw [hlayers, hspec]; exact CType.isInt_declared _ _⟩ hname hnew
  exact ⟨hnew, hf', hg, hd⟩

/-! ## Expressions -/

/-- The pass leaves expressions as they are. -/
theorem fill_exprs (h : Exprs ok ns es) (hq : Quiet (visitAll above ns) s ns' s') : ns' = ns ∧ s' = s := by
  induction h generalizing above s ns' s' with
  | nil => exact quiet_nil hq
  | cons _ _ ih ih' =>
    obtain ⟨m, ms, s1, rfl, hm, hms⟩ := visits.quiet_cons hq
    obtain ⟨heq, rfl⟩ := ih (visits.quiet_singleton hm)
    obtain ⟨rfl, rfl⟩ := ih' hms
    exact ⟨by rw [(List.cons.inj heq).1], rfl⟩
  | int | var =>
    obtain ⟨cs, rfl, hcs⟩ := quiet_plain rfl hq
    obtain ⟨rfl, rfl⟩ := quiet_nil hcs
    exact ⟨rfl, rfl⟩
  | call _ _ ih =>
    obtain ⟨cs, rfl, hcs⟩ := quiet_plain rfl hq
    obtain ⟨args, rfl, hargs⟩ := quiet_plain rfl hcs
    obtain ⟨rfl, rfl⟩ := ih hargs
    exact ⟨rfl, rfl⟩
  | step up =>
    obtain ⟨cs, rfl, hcs⟩ := quiet_plain (by cases up <;> rfl) hq
    obtain ⟨none, rfl, hnone⟩ := quiet_plain rfl hcs
    obtain ⟨rfl, rfl⟩ := quiet_nil hnone
    exact ⟨rfl, rfl⟩
  | assign _ _ ih =>
    obtain ⟨cs, rfl, hcs⟩ := quiet_plain rfl hq
    obtain ⟨m, ms, s1, rfl, hm, hms⟩ := visits.quiet_cons hcs
    obtain ⟨none, rfl, hnone⟩ := quiet_visit_plain rfl hm
    obtain ⟨rfl, rfl⟩ := quiet_nil hnone
    obtain ⟨rfl, rfl⟩ := ih hms
    exact ⟨rfl, rfl⟩
  | _ =>
    rename_i ih
    obtain ⟨cs, rfl, hcs⟩ := quiet_plain rfl hq
    obtain ⟨rfl, rfl⟩ := ih hcs
    exact ⟨rfl, rfl⟩

theorem Exprs.entered (h : Exprs ok ns es) : Exprs (Entered T pl) ns es :=
  h.imp (fun _ _ _ _ => trivial) fun _ _ _ _ => trivial

end

/-! ## Statements -/

section

variable {pl : Place} {frame : Nat} {T : SymbolTable} {s s' : PassState} {above ns ns' : List Node}
  {ok : Place → Kind → Prop} {st : Stmt}

theorem fill_initial {init : Option Expr} (h : Initial (ok pl) ns init)
    (hq : Quiet (visitAll above ns) s ns' s') : ns' = ns ∧ s' = s ∧ Initial (Entered T pl) ns' init := by
  cases h with
  | none =>
    obtain ⟨rfl, rfl⟩ := quiet_nil hq
    exact ⟨rfl, rfl, .none⟩
  | some h =>
    obtain ⟨cs, rfl, hcs⟩ := quiet_plain rfl hq
    obtain ⟨rfl, rfl⟩ := fill_exprs h hcs
    exact ⟨rfl, rfl, .some h.entered⟩

theorem fill_decls {spec : Specifiers} (h : Decls ok pl ns st) (hspec : spec.base = .int)
    (habove : above.head?.map Node.kind = some (.variableDeclaration spec)) (hf : Filling pl frame s.table)
    (hq : Quiet (visitAll above ns) s ns' s') :
    Filling (st.after pl) frame s'.table ∧ Grown frame s.table s'.table ∧
      ∀ T, Extends isDefinite s'.table T → Decls (Entered T) pl ns' st := by
  induction h generalizing s ns' s' with
  | nil =>
    obtain ⟨rfl, rfl⟩ := quiet_nil hq
    exact ⟨hf, .refl _ _, fun _ _ => .nil⟩
  | cons _ hinit _ ih =>
    obtain ⟨m, ms, s1, rfl, hm, hms⟩ := visits.quiet_cons hq
    obtain ⟨s0, type, htype, hs0, henter⟩ := quiet_declarator hm
    rw [habove] at htype
    obtain rfl := Except.ok.inj htype
    rw [← hs0] at hf ⊢
    obtain ⟨s2, v, cs', rfl, hf2, hg2, hd, hcs⟩ :=
      fill_entering hf (by rw [hspec]; exact CType.isInt_declared _ _) henter
    obtain ⟨rfl, rfl, -⟩ := fill_initial (T := s.table) hinit hcs
    obtain ⟨hf', hg', hrest⟩ := ih hf2 hms
    refine ⟨hf', hg2.trans hg', fun T hT => .cons ⟨v, rfl, fun x hx => ?_⟩ ?_ (hrest T hT)⟩
    · cases hx
      exact hd.extends (hg'.toExtends.trans hT)
    · exact (fill_initial hinit hcs).2.2

theorem fill_params {xs : List String} (h : Params ok pl ns xs)
    (habove : above[1]?.any (·.kind.isDeclaration) = false) (hf : Filling pl frame s.table)
    (hq : Quiet (visitAll above ns) s ns' s') :
    Filling (pl.params xs) frame s'.table ∧ Grown frame s.table s'.table ∧
      ∀ T, Extends isDefinite s'.table T → Params (Entered T) pl ns' xs := by
  induction h generalizing s ns' s' with
  | nil =>
    obtain ⟨rfl, rfl⟩ := quiet_nil hq
    exact ⟨hf, .refl _ _, fun _ _ => .nil⟩
  | void =>
    obtain ⟨m, rfl, hm⟩ := visits.quiet_one hq
    obtain ⟨-, -, rfl, hs'⟩ | ⟨-, -, hdeclaration, -⟩ | ⟨-, hvoid, -⟩ := quiet_parameter hm
    · rw [hs']
      exact ⟨hf, .refl _ _, fun _ _ => .void⟩
    · rw [hdeclaration] at habove
      cases habove
    · cases hvoid
  | cons hspec _ _ ih =>
    obtain ⟨m, ms, s1, rfl, hm, hms⟩ := visits.quiet_cons hq
    obtain ⟨-, hname, -⟩ | ⟨-, -, hdeclaration, -⟩ | ⟨s0, -, -, -, hs0, henter⟩ := quiet_parameter hm
    · cases hname
    · rw [hdeclaration] at habove
      cases habove
    rw [← hs0] at hf ⊢
    obtain ⟨s2, v, cs', rfl, hf2, hg2, hd, hcs⟩ :=
      fill_entering hf (by simp [decay, parameterType, hspec, CType.isInt_declared]) henter
    obtain ⟨rfl, rfl⟩ := quiet_nil hcs
    obtain ⟨hf', hg', hrest⟩ := ih hf2 hms
    refine ⟨hf', hg2.trans hg', fun T hT => .cons hspec (fun x hx => ⟨v, ?_⟩) (hrest T hT)⟩
    cases hx
    exact hd.extends (hg'.toExtends.trans hT)

theorem fill_first (h : First ok pl ns st) (hf : Filling pl frame s.table)
    (hq : Quiet (visitAll above ns) s ns' s') :
    Filling (st.after pl) frame s'.table ∧ Grown frame s.table s'.table ∧ ns'.map Node.id = ns.map Node.id ∧
      ∀ T, Extends isDefinite s'.table T → First (Entered T) pl ns' st := by
  cases h with
  | none =>
    obtain ⟨rfl, rfl⟩ := quiet_nil hq
    exact ⟨hf, .refl _ _, rfl, fun _ _ => .none⟩
  | decls hspec h =>
    obtain ⟨cs, rfl, hcs⟩ := quiet_plain rfl hq
    obtain ⟨hf', hg, hrest⟩ := fill_decls h hspec rfl hf hcs
    exact ⟨hf', hg, rfl, fun T hT => .decls hspec (hrest T hT)⟩
  | expr h =>
    obtain ⟨rfl, rfl⟩ := fill_exprs h hq
    exact ⟨hf, .refl _ _, rfl, fun _ _ => .expr h.entered⟩

theorem fill_part {c : Option Expr} (h : Part (ok pl) ns c) (hq : Quiet (visitAll above ns) s ns' s') :
    ns' = ns ∧ s' = s ∧ Part (Entered T pl) ns c := by
  cases h with
  | none =>
    obtain ⟨rfl, rfl⟩ := quiet_nil hq
    exact ⟨rfl, rfl, .none⟩
  | some h =>
    obtain ⟨rfl, rfl⟩ := fill_exprs h hq
    exact ⟨rfl, rfl, .some h.entered⟩

theorem Filling.reloop (h : Filling pl frame s.table) (loop : Bool) : Filling { pl with loop } frame s.table :=
  ⟨h.built, h.replaying, h.current, h.scopes, h.scope_lt, h.frameOf, h.frame_lt, h.cells, h.depth⟩

/-- The node of a statement with one part. -/
theorem fill_statement (hq : Quiet (visitAll above [.mk id .statement o [n]]) s ns' s') :
    ∃ m, ns' = [.mk id .statement o [m]] ∧ Quiet (visit (.mk id .statement o [n] :: above) n) s m s' := by
  obtain ⟨cs, rfl, hcs⟩ := quiet_plain rfl hq
  obtain ⟨m, rfl, hm⟩ := visits.quiet_one hcs
  exact ⟨m, rfl, hm⟩

/-- What the pass makes of statements. -/
structure Filled (pl : Place) (frame : Nat) (t : SymbolTable) (ns : List Node) (st : Stmt) (t' : SymbolTable) : Prop where
  filling : Filling (st.after pl) frame t'
  grown : Grown frame t t'
  stmts : ∀ T, Extends isDefinite t' T → Stmts (Entered T) pl ns st

theorem fill_stmts (h : Stmts ok pl ns st) (hq : Quiet (visitAll above ns) s ns' s')
    (hf : Filling pl frame s.table) (hin : pl.env.inside = true) (hloop : (loopAround? above).isSome = pl.loop) :
    Filled pl frame s.table ns' st s'.table := by
  induction h generalizing above s ns' s' with
  | nil =>
    obtain ⟨rfl, rfl⟩ := quiet_nil hq
    exact ⟨hf, .refl _ _, fun _ _ => .nil⟩
  | cons _ _ ih ih' =>
    obtain ⟨m, ms, s1, rfl, hm, hms⟩ := visits.quiet_cons hq
    obtain ⟨hf1, hg1, hs1⟩ := ih (visits.quiet_singleton hm) hf hin hloop
    obtain ⟨hf', hg', hs'⟩ := ih' hms hf1 (by simpa using hin) (by simpa using hloop)
    exact ⟨hf', hg1.trans hg', fun T hT => .cons (hs1 T (hg'.toExtends.trans hT)) (hs' T hT)⟩
  | empty =>
    obtain ⟨cs, rfl, hcs⟩ := quiet_plain rfl hq
    obtain ⟨rfl, rfl⟩ := quiet_nil hcs
    exact ⟨hf, .refl _ _, fun _ _ => .empty⟩
  | expr h =>
    obtain ⟨m, rfl, hm⟩ := fill_statement hq
    obtain ⟨heq, rfl⟩ := fill_exprs h (visits.quiet_singleton hm)
    cases heq
    exact ⟨hf, .refl _ _, fun _ _ => .expr h.entered⟩
  | decls hspec h =>
    obtain ⟨m, rfl, hm⟩ := fill_statement hq
    obtain ⟨cs, rfl, hcs⟩ := quiet_visit_plain rfl hm
    obtain ⟨hf', hg, hrest⟩ := fill_decls h hspec rfl hf hcs
    exact ⟨hf', hg, fun T hT => .decls hspec (hrest T hT)⟩
  | block _ _ ih =>
    obtain ⟨m, rfl, hm⟩ := fill_statement hq
    obtain ⟨cs, s1, rfl, hcs, hshut⟩ := quiet_block rfl hf.replaying hf.current hm
    obtain ⟨hf1, hg1, hs1⟩ := ih hcs (hf.opened hin) (by simp [Place.opened]) hloop
    rw [hshut _ hf1.current, Stmt.scope_after]
    obtain ⟨hf', hg', hT'⟩ := hf.closed hin hg1 hf1 (by simp [Place.opened])
    exact ⟨hf', hg', fun T hT => .block (hT' T hT).1 (hs1 T (hT' T hT).2)⟩
  | ifThen h _ ih =>
    obtain ⟨m, rfl, hm⟩ := fill_statement hq
    obtain ⟨cs, rfl, hcs⟩ := quiet_visit_plain rfl hm
    obtain ⟨c, as, s1, rfl, hc, has⟩ := visits.quiet_cons hcs
    obtain ⟨heq, rfl⟩ := fill_exprs h (visits.quiet_singleton hc)
    cases heq
    obtain ⟨hf', hg', hs'⟩ := ih has hf hin hloop
    obtain ⟨a, rfl, -⟩ := visits.quiet_one has
    exact ⟨hf', hg', fun T hT => .ifThen h.entered (hs' T hT)⟩
  | ifElse h _ _ ih ih' =>
    obtain ⟨m, rfl, hm⟩ := fill_statement hq
    obtain ⟨cs, rfl, hcs⟩ := quiet_visit_plain rfl hm
    obtain ⟨c, parts, s1, rfl, hc, hparts⟩ := visits.quiet_cons hcs
    obtain ⟨heq, rfl⟩ := fill_exprs h (visits.quiet_singleton hc)
    cases heq
    obtain ⟨a, bs, s2, rfl, ha, hbs⟩ := visits.quiet_cons hparts
    obtain ⟨hf2, hg2, hs2⟩ := ih (visits.quiet_singleton ha) hf hin hloop
    obtain ⟨rest, rfl, hrest⟩ := quiet_plain rfl hbs
    obtain ⟨hf', hg', hs'⟩ := ih' hrest hf2 (by simpa using hin) (by rw [Stmt.loop_after]; exact hloop)
    obtain ⟨b, rfl, -⟩ := visits.quiet_one hrest
    exact ⟨hf', hg2.trans hg', fun T hT => .ifElse h.entered (hs2 T (hg'.toExtends.trans hT)) (hs' T hT)⟩
  | whileLoop h _ ih =>
    obtain ⟨m, rfl, hm⟩ := fill_statement hq
    obtain ⟨cs, rfl, hcs⟩ := quiet_visit_plain rfl hm
    obtain ⟨c, as, s1, rfl, hc, has⟩ := visits.quiet_cons hcs
    obtain ⟨heq, rfl⟩ := fill_exprs h (visits.quiet_singleton hc)
    cases heq
    obtain ⟨hf', hg', hs'⟩ := ih has (hf.reloop true) hin rfl
    obtain ⟨a, rfl, -⟩ := visits.quiet_one has
    exact ⟨hf'.reloop _, hg', fun T hT => .whileLoop h.entered (hs' T hT)⟩
  | @forLoop pl _ _ _ _ is _ _ _ _ _ _ _ _ hfirst hc hit _ hids ih =>
    obtain ⟨m, rfl, hm⟩ := fill_statement hq
    obtain ⟨cs, s1, rfl, hcs, hshut⟩ := quiet_forLoop hf.replaying hf.current hm
    obtain ⟨header, bodies, s2, rfl, hheader, hbody⟩ := visits.quiet_append hcs
    obtain ⟨tests, its, s3, rfl, htests, hits⟩ := visits.quiet_append hheader
    obtain ⟨firsts, conds, s4, rfl, hfirsts, hconds⟩ := visits.quiet_append htests
    obtain ⟨hf1, hg1, hfids, hs1⟩ := fill_first hfirst (hf.opened hin) hfirsts
    obtain ⟨rfl, rfl, -⟩ := fill_part (T := s.table) hc hconds
    obtain ⟨rfl, rfl, -⟩ := fill_part (T := s.table) hit hits
    obtain ⟨hf2, hg2, hs2⟩ := ih hbody (hf1.reloop true) (by simp [Place.looped, Place.opened]) rfl
    obtain ⟨b, rfl, -⟩ := visits.quiet_one hbody
    have hdiffer : ∀ t ∈ its, ∀ n ∈ firsts ++ conds, n.id ≠ t.id := differ_of_ids (by simp [hfids]) rfl hids
    rw [hshut _ hf2.current, Stmt.scope_after, Place.looped, Stmt.scope_after]
    obtain ⟨hf', hg', hT'⟩ := hf.closed hin (hg1.trans hg2) hf2 (by simp [Place.looped, Place.opened])
    refine ⟨hf', hg', fun T hT => ?_⟩
    obtain ⟨ho, hT2⟩ := hT' T hT
    have hT1 := hg2.toExtends.trans hT2
    rw [isEmpty_of_ids hfids]
    exact .forLoop ho (hs1 T hT1) (fill_part hc hconds).2.2 (fill_part hit hits).2.2 (hs2 T hT2) hdiffer
  | ret h =>
    obtain ⟨m, rfl, hm⟩ := fill_statement hq
    obtain ⟨cs, rfl, hcs⟩ := quiet_visit_plain rfl hm
    obtain ⟨rfl, rfl⟩ := fill_exprs h hcs
    exact ⟨hf, .refl _ _, fun _ _ => .ret h.entered⟩
  | brk =>
    obtain ⟨m, rfl, hm⟩ := fill_statement hq
    obtain ⟨rfl, rfl, hsome⟩ := quiet_jump (.inl rfl) hm
    exact ⟨hf, .refl _ _, fun _ _ => .brk (hloop.symm.trans hsome)⟩
  | cont =>
    obtain ⟨m, rfl, hm⟩ := fill_statement hq
    obtain ⟨rfl, rfl, hsome⟩ := quiet_jump (.inr rfl) hm
    exact ⟨hf, .refl _ _, fun _ _ => .cont (hloop.symm.trans hsome)⟩

/-! ## Programs -/

theorem closures_items (globals : List (String × Nat)) (st : Stmt) (p : Program) :
    ∃ globals', closures globals (st.items ++ p) = closures globals' p := by
  fun_induction Stmt.items st generalizing globals with
  | case1 x init st ih => exact ih _
  | case2 => exact ⟨globals, rfl⟩

theorem globalsCount_items (h : Decls ok pl ns st) (p : Program) :
    (st.after pl).env.next + globalsCount p = pl.env.next + globalsCount (st.items ++ p) := by
  induction h with
  | nil => rfl
  | cons _ _ _ ih =>
    simp only [Stmt.after, Stmt.items, List.cons_append, globalsCount]
    rw [ih]
    simp [Place.declare]
    omega

/-- The names of functions that are new to a table and differ from each other. -/
def NewFunctions (t : SymbolTable) (p : Program) : Prop :=
  ∀ globals, ((closures globals p).map (·.function.name)).Nodup ∧
    ∀ g ∈ closures globals p, t.named? 0 (some g.function.name) = none

theorem NewFunctions.items (h : NewFunctions t p) (st : Stmt) : NewFunctions t (st.items ++ p) := by
  intro globals
  obtain ⟨globals', heq⟩ := closures_items globals st p
  rw [heq]
  exact h globals'

theorem NewFunctions.before {t' : SymbolTable} (h : NewFunctions t' p) (hb : IntBuilt t)
    (he : Extends isDefinite t t') : NewFunctions t p := by
  refine fun globals => ⟨(h globals).1, fun g hg => ?_⟩
  cases hentry : t.named? 0 (some g.function.name) with
  | none => rfl
  | some v => exact absurd ((h globals).2 g hg) (by simp [he.named_eq _ _ _ hentry (hb.isDefinite v)])

theorem NewFunctions.function {t' : SymbolTable} {f : Function} (hnew : t.named? 0 (some f.name) = none)
    (hb : IntBuilt t) (he : Extends isDefinite t t') (hd : Defines t' f.name) (h : NewFunctions t' p) :
    NewFunctions t (.function f :: p) := by
  intro globals
  obtain ⟨v, -, hv, -⟩ := hd
  refine ⟨List.nodup_cons.2 ⟨fun hmem => ?_, (h globals).1⟩, fun g hg => ?_⟩
  · obtain ⟨g, hg, heq⟩ := List.mem_map.1 hmem
    have := (h globals).2 g hg
    rw [heq, hv] at this
    cases this
  · obtain rfl | hg := List.mem_cons.1 hg
    · exact hnew
    · exact (h.before hb he globals).2 g hg

theorem fill_body {id' id'' : Nat} {o' o'' : Option ParseTree} {head : FunctionHead} {cs ps ss : List Node}
    {xs : List String} (hform : head.form.isDefinition = true) (hps : Params ok pl ps xs)
    (hst : Stmts ok (pl.params xs) ss st) (hq : Quiet (visitAll (.mk id (.function head) o cs :: above)
      [.mk id' .parameters o' ps, .mk id'' .statements o'' ss]) s ns' s') (hf : Filling pl frame s.table)
    (hin : pl.env.inside = true) (hloop : (loopAround? above).isSome = pl.loop) :
    ∃ ps' ss', ns' = [.mk id' .parameters o' ps', .mk id'' .statements o'' ss'] ∧
      Filling (st.after (pl.params xs)) frame s'.table ∧ Grown frame s.table s'.table ∧
      ∀ T, Extends isDefinite s'.table T → Params (Entered T) pl ps' xs ∧ Stmts (Entered T) (pl.params xs) ss' st := by
  obtain ⟨params, rest, s1, rfl, hparams, hrest⟩ := visits.quiet_cons hq
  obtain ⟨ps', rfl, hps'⟩ := quiet_visit_plain rfl hparams
  obtain ⟨body, rfl, hbody⟩ := visits.quiet_one hrest
  obtain ⟨ss', rfl, hss'⟩ := quiet_body (by simp [opensScope, Node.kind, Kind.isDefinition, hform]) hbody
  obtain ⟨hf1, hg1, hs1⟩ := fill_params hps (by simp [Node.kind, Kind.isDeclaration, hform]) hf hps'
  obtain ⟨hf', hg', hs'⟩ := fill_stmts hst hss' hf1 (by simpa using hin) (by rw [Place.loop_params]; exact hloop)
  exact ⟨ps', ss', rfl, hf', hg1.trans hg', fun T hT => ⟨hs1 T (hg'.toExtends.trans hT), hs' T hT⟩⟩

/-- What the pass makes of a program. -/
structure FilledItems (pl : Place) (t : SymbolTable) (ns : List Node) (p : Program) (t' : SymbolTable) : Prop where
  filling : ∃ pl', Filling pl' 0 t' ∧ pl'.env.next = pl.env.next + globalsCount p
  grown : Grown 0 t t'
  new : NewFunctions t p
  items : ∀ T, Grown 0 t' T → Items (Entered T) (fun pl k => (T.scope pl.scopes).cells = k) pl ns p

theorem fill_items {sized : Place → Nat → Prop} {program : Node} (h : Items ok sized pl ns p)
    (hq : Quiet (visitAll [program] ns) s ns' s') (hkind : program.kind = .program) (hf : Filling pl 0 s.table)
    (hroot : pl.scope = 0) (hout : pl.env.inside = false) : FilledItems pl s.table ns' p s'.table := by
  induction h generalizing s ns' s' with
  | nil =>
    obtain ⟨rfl, rfl⟩ := quiet_nil hq
    exact ⟨⟨_, hf, rfl⟩, .refl _ _, fun _ => ⟨.nil, by simp [closures]⟩, fun _ _ => .nil⟩
  | @vars _ _ _ _ _ st _ p hspec hdecls _ ih =>
    obtain ⟨m, ms, s1, rfl, hm, hms⟩ := visits.quiet_cons hq
    obtain ⟨cs, rfl, hcs⟩ := quiet_visit_plain rfl hm
    obtain ⟨hf1, hg1, hd1⟩ := fill_decls hdecls hspec rfl hf hcs
    obtain ⟨⟨pl', hf', hnext⟩, hg', hnew, hitems⟩ := ih hms hf1 (by simpa using hroot) (by simpa using hout)
    refine ⟨⟨pl', hf', ?_⟩, hg1.trans hg', (hnew.before hf.built hg1.toExtends).items st, fun T hT => ?_⟩
    · rw [hnext, globalsCount_items hdecls]
    · exact .vars hspec (hd1 T (hg'.trans hT).toExtends) (hitems T hT)
  | @function pl id id' id'' o o' o'' form spec f _ xs _ st _ p hform hspec _ _ hps hbody _ ih =>
    obtain ⟨m, ms, s1, rfl, hm, hms⟩ := visits.quiet_cons hq
    obtain ⟨s0, s2, hs0, henter, hrest⟩ := quiet_function hm
    rw [← hs0] at hf ⊢
    obtain ⟨hnew, hf2, hg2, hd2⟩ := fill_function hf hroot hout hform hspec rfl rfl henter
    obtain ⟨cs, s3, rfl, hcs, hshut⟩ := quiet_scoped hf2.replaying hf2.current (if_pos hform ▸ hrest)
    obtain ⟨ps, ss, rfl, hf3, hg3, hparts⟩ := fill_body hform hps hbody hcs (hf2.function hout)
      (by simp [Place.function, Env.inside]) (by simp [loopAround?, hkind, Kind.isLoop, Place.function])
    have hinner : (st.after (pl.function.params xs)).env.inside = true := by
      rw [Stmt.env_after, Stmt.inside_bind, Place.env_params, Env.inside_declareAll]
      rfl
    obtain ⟨hf1, hg1, hT1⟩ := hf2.returned hout hg3 hf3 hinner
    have htable : s1.table = s3.table.shut pl.scopes := by
      rw [hshut _ hf3.current, Stmt.scope_after, Place.scope_params]
      rfl
    rw [← htable] at hf1 hg1 hT1
    obtain ⟨⟨pl', hf', hnext⟩, hg', hnew', hitems⟩ := ih hms hf1 hroot hout
    refine ⟨⟨pl', hf', hnext⟩, (hg2.trans hg1).trans hg',
      .function hnew hf.built (hg2.trans hg1).toExtends (hd2.extends hf2.built hg1.toExtends) hnew', fun T hT => ?_⟩
    obtain ⟨hopens, hT3, hcells⟩ := hT1 T (hg'.trans hT)
    have hdefines : Defines T f := hd2.extends hf2.built ((hg1.trans hg').trans hT).toExtends
    exact .function hform hspec ⟨hopens, fun _ hf => by cases hf; exact hdefines⟩ hcells (hparts T hT3).1 (hparts T hT3).2
      (hitems T hT)

theorem filling_start : Filling .start 0 {} := by
  refine ⟨⟨built_empty, ?_, ?_, rfl⟩, rfl, rfl, rfl, Nat.one_pos, by simp [SymbolTable.frameOf, Place.start, scope_empty],
    Nat.one_pos, by simp [scope_empty]; rfl, rfl⟩
  · intro v f hf
    rw [symbol_empty] at hf
    cases hf
  · intro i e o he
    simp [entries, scope_empty] at he

/-- The first pass over a program. -/
theorem fill_program {sized : Place → Nat → Prop} {n' : Node} (h : Items ok sized .start ns p)
    (hq : Quiet (Fill.run (.mk id .program o ns)) s n' s') (hs : s.table = {}) :
    ∃ ns' T, n' = .mk id .program o ns' ∧ s'.table = T.reset ∧ IntBuilt T ∧ (T.scope 0).cells = globalsCount p ∧
      ((closures [] p).map (·.function.name)).Nodup ∧
      Items (Entered T) (fun pl k => (T.scope pl.scopes).cells = k) .start ns' p := by
  obtain ⟨ns', s1, rfl, hns', hreset⟩ := quiet_program hq
  obtain ⟨⟨pl', hf, hnext⟩, -, hnew, hitems⟩ := fill_items h hns' rfl (hs ▸ filling_start) rfl rfl
  refine ⟨ns', s1.table, rfl, hreset, hf.built, ?_, (hnew []).1, hitems _ (.refl _ _)⟩
  rw [hf.cells, hnext]
  simp [Place.start]

end

end IntLang

end MiniC
