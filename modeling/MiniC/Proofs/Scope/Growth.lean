import Mathlib.Data.List.Find
import MiniC.Proofs.Scope.Table

/-!
# Growth of symbol tables

While a table is filled, scopes and symbols are only added. `Built` collects what holds of a table that was filled:
it is `Rooted`, the children of a scope are listed in the order of their numbers, each symbol belongs to one scope, and
functions belong to the root. `Extends`, `Adds` and `Grown` relate a table to a later one.
-/

namespace MiniC

/-- The symbol keeps its place; only a function without a body gives it to another. -/
def Symbol.isDefinite : Symbol → Bool
  | .object _ => true
  | .function f => f.form.isDefinition

namespace SymbolTable

variable {t t1 t' : SymbolTable} {s frame v : Nat} {size : Int} {x : Symbol} {name : Option String}

/-! ## Tables that were filled -/

/-- The scopes inside a scope with numbers below one. -/
def childrenBelow (t : SymbolTable) (s n : Nat) : List Nat :=
  (List.range n).filter fun i => (t.scope i).above.head? = some s

/-- Scopes are numbered from the outside, and names stand for symbols of the table. -/
structure Rooted (t : SymbolTable) : Prop where
  root_lt : 0 < t.scopes.size
  root_above : (t.scope 0).above = []
  above_lt : ∀ s, ∀ a ∈ (t.scope s).above, a < s
  entry_lt : ∀ s, ∀ e ∈ t.entries s, e.2 < t.symbols.size

/-- What a replay goes by: the children of a scope, and that no variable is declared yet. -/
structure Ordered (t : SymbolTable) : Prop extends Rooted t where
  children_eq : ∀ s, (t.scope s).children.toList = t.childrenBelow s t.scopes.size
  unseen : ∀ v o, t.symbol v = .object o → o.seen = 0

structure Built (t : SymbolTable) : Prop extends Ordered t where
  owner : ∀ s s' e e', e ∈ t.entries s → e' ∈ t.entries s' → e.2 = e'.2 → s = s'
  name_eq : ∀ s, ∀ e ∈ t.entries s, (t.symbol e.2).name = e.1
  function_root : ∀ s e f, e ∈ t.entries s → t.symbol e.2 = .function f → s = 0
  unseen_function : ∀ v f, t.symbol v = .function f → f.seen = none

theorem scope_empty (i : Nat) : ({} : SymbolTable).scope i = {} := by
  cases i <;> simp [SymbolTable.scope]

theorem symbol_empty (v : Nat) : ({} : SymbolTable).symbol v = .object default := by simp [SymbolTable.symbol]; rfl

theorem entries_empty (i : Nat) : ({} : SymbolTable).entries i = [] := by simp [entries, scope_empty]

theorem rooted_empty : Rooted {} := by
  constructor
  case root_lt => exact Nat.one_pos
  all_goals simp [entries_empty, scope_empty]

theorem ordered_empty : Ordered {} where
  toRooted := rooted_empty
  children_eq i := by simp [childrenBelow, scope_empty]
  unseen v o ho := by rw [symbol_empty] at ho; cases ho; rfl

theorem built_empty : Built {} := by
  constructor
  case toOrdered => exact ordered_empty
  case unseen_function => intro v f hf; rw [symbol_empty] at hf; cases hf
  all_goals simp [entries_empty]

/-- A later table, in which the symbols of some sort still have their names. -/
structure Extends (kept : Symbol → Bool) (t t' : SymbolTable) : Prop where
  scopes_le : t.scopes.size ≤ t'.scopes.size
  symbols_le : t.symbols.size ≤ t'.symbols.size
  symbol_eq : ∀ v < t.symbols.size, t'.symbol v = t.symbol v
  above_eq : ∀ s < t.scopes.size, (t'.scope s).above = (t.scope s).above
  isFunction_eq : ∀ s < t.scopes.size, (t'.scope s).isFunction = (t.scope s).isFunction
  named_eq : ∀ s name v, t.named? s name = some v → kept (t.symbol v) = true →
    t'.named? s name = some v ∧ t'.symbol v = t.symbol v

/-- A later table in which only one frame has more cells. -/
structure Grown (frame : Nat) (t t' : SymbolTable) : Prop extends Extends Symbol.isDefinite t t' where
  cells_eq : ∀ s < t.scopes.size, s ≠ frame → (t'.scope s).cells = (t.scope s).cells

section

variable {kept : Symbol → Bool}

theorem Extends.refl (kept : Symbol → Bool) (t : SymbolTable) : Extends kept t t :=
  ⟨Nat.le_refl _, Nat.le_refl _, fun _ _ => rfl, fun _ _ => rfl, fun _ _ => rfl, fun _ _ _ h _ => ⟨h, rfl⟩⟩

theorem Extends.trans (h : Extends kept t t1) (h' : Extends kept t1 t') : Extends kept t t' where
  scopes_le := Nat.le_trans h.scopes_le h'.scopes_le
  symbols_le := Nat.le_trans h.symbols_le h'.symbols_le
  symbol_eq v hv := (h'.symbol_eq v (Nat.lt_of_lt_of_le hv h.symbols_le)).trans (h.symbol_eq v hv)
  above_eq s hs := (h'.above_eq s (Nat.lt_of_lt_of_le hs h.scopes_le)).trans (h.above_eq s hs)
  isFunction_eq s hs := (h'.isFunction_eq s (Nat.lt_of_lt_of_le hs h.scopes_le)).trans (h.isFunction_eq s hs)
  named_eq s name v hv hk := by
    obtain ⟨hv1, heq1⟩ := h.named_eq s name v hv hk
    obtain ⟨hv', heq'⟩ := h'.named_eq s name v hv1 (by rw [heq1]; exact hk)
    exact ⟨hv', heq'.trans heq1⟩

end

theorem Grown.refl (frame : Nat) (t : SymbolTable) : Grown frame t t := ⟨.refl _ t, fun _ _ _ => rfl⟩

theorem Grown.trans (h : Grown frame t t1) (h' : Grown frame t1 t') : Grown frame t t' where
  toExtends := h.toExtends.trans h'.toExtends
  cells_eq s hs hne := (h'.cells_eq s (Nat.lt_of_lt_of_le hs h.scopes_le) hne).trans (h.cells_eq s hs hne)

/-- Where a scope that was made later has got the cells, all others have theirs still. -/
theorem Grown.of_le {frame' : Nat} (h : Grown frame t t') (hf : t.scopes.size ≤ frame) : Grown frame' t t' :=
  { h with cells_eq := fun s hs _ => h.cells_eq s hs (by omega) }

/-- The frame of a scope depends only on the scopes around it. -/
theorem Rooted.frameOf_congr (hr : Rooted t) (hs : s < t.scopes.size)
    (habove : ∀ i < t.scopes.size, (t'.scope i).above = (t.scope i).above)
    (hfunction : ∀ i < t.scopes.size, (t'.scope i).isFunction = (t.scope i).isFunction) : t'.frameOf s = t.frameOf s := by
  have hlt : ∀ i ∈ s :: (t.scope s).above, i < t.scopes.size := by
    intro i hi
    obtain rfl | hi := List.mem_cons.1 hi
    · exact hs
    · exact Nat.lt_trans (hr.above_lt s i hi) hs
  simp only [frameOf, habove s hs]
  congr 1
  refine List.find?_congr fun i hi => ?_
  rw [hfunction i (hlt i hi), habove i (hlt i hi)]

theorem Extends.frameOf {kept : Symbol → Bool} (h : Extends kept t t') (hb : Built t) (hs : s < t.scopes.size) :
    t'.frameOf s = t.frameOf s := hb.frameOf_congr hs h.above_eq h.isFunction_eq

theorem Rooted.frameOf_lt (hr : Rooted t) (hs : s < t.scopes.size) : t.frameOf s < t.scopes.size := by
  unfold frameOf
  cases hfind : (s :: (t.scope s).above).find? fun s => (t.scope s).isFunction || (t.scope s).above.isEmpty with
  | none => exact hr.root_lt
  | some j =>
    obtain rfl | hj := List.mem_cons.1 (List.mem_of_find?_eq_some hfind)
    · exact hs
    · exact Nat.lt_trans (hr.above_lt s j hj) hs

/-! ## Steps -/

/-- A symbol takes the place of none that is to be kept. -/
theorem Enters.extends {kept : Symbol → Bool} (h : Enters t s frame size x t') (hb : Built t)
    (hold : ∀ v, t.named? s x.name = some v → kept (t.symbol v) = false) : Extends kept t t' where
  scopes_le := Nat.le_of_eq h.scopes.symm
  symbols_le := by rw [h.symbols]; omega
  symbol_eq v hv := by rw [h.symbol_eq, if_neg (by omega)]
  above_eq i _ := h.above i
  isFunction_eq i _ := h.isFunction i
  named_eq i name v hv hk := by
    have hlt : v < t.symbols.size := hb.entry_lt i _ (mem_of_named? hv)
    refine ⟨?_, by rw [h.symbol_eq, if_neg (by omega)]⟩
    rw [h.named?, if_neg ?_, hv]
    rintro ⟨rfl, rfl⟩
    rw [hold v hv] at hk
    cases hk

theorem Enters.grown (h : Enters t s frame size x t') (hb : Built t)
    (hold : ∀ v, t.named? s x.name = some v → (t.symbol v).isDefinite = false) : Grown frame t t' where
  toExtends := h.extends hb hold
  cells_eq i _ hne := by rw [h.cells, if_neg hne, Int.add_zero]

theorem Enters.rooted (h : Enters t s frame size x t') (hr : Rooted t) : Rooted t' where
  root_lt := h.scopes ▸ hr.root_lt
  root_above := (h.above 0).trans hr.root_above
  above_lt i a ha := hr.above_lt i a (h.above i ▸ ha)
  entry_lt i e he := by
    rw [h.symbols]
    obtain he | ⟨-, rfl⟩ := h.mem_entries he
    · exact Nat.lt_succ_of_lt (hr.entry_lt i e he)
    · exact Nat.lt_succ_self _

theorem Enters.ordered (h : Enters t s frame size x t') (ho : Ordered t) (hobj : ∀ o, x = .object o → o.seen = 0) :
    Ordered t' where
  toRooted := h.rooted ho.toRooted
  children_eq i := by simp only [h.children, ho.children_eq, childrenBelow, h.above, h.scopes]
  unseen v o hv := by
    rw [h.symbol_eq] at hv
    split at hv
    · exact hobj o hv
    · exact ho.unseen v o hv

theorem Enters.built (h : Enters t s frame size x t') (hb : Built t)
    (hfun : ∀ f, x = .function f → s = 0 ∧ f.seen = none) (hobj : ∀ o, x = .object o → o.seen = 0) : Built t' := by
  have hold : ∀ i, ∀ e ∈ t.entries i, t'.symbol e.2 = t.symbol e.2 := fun i e he => by
    have := hb.entry_lt i e he
    rw [h.symbol_eq, if_neg (by omega)]
  have hlast : t'.symbol t.symbols.size = x := by rw [h.symbol_eq, if_pos rfl]
  constructor
  case toOrdered => exact h.ordered hb.toOrdered hobj
  case owner =>
    intro i j e e' he he' heq
    obtain he | ⟨rfl, rfl⟩ := h.mem_entries he <;> obtain he' | ⟨rfl, rfl⟩ := h.mem_entries he'
    · exact hb.owner i j e e' he he' heq
    · have := hb.entry_lt i e he; simp only at heq; omega
    · have := hb.entry_lt j e' he'; simp only at heq; omega
    · rfl
  case name_eq =>
    intro i e he
    obtain he | ⟨-, rfl⟩ := h.mem_entries he
    · rw [hold i e he]; exact hb.name_eq i e he
    · rw [hlast]
  case function_root =>
    intro i e f he hf
    obtain he | ⟨rfl, rfl⟩ := h.mem_entries he
    · rw [hold i e he] at hf; exact hb.function_root i e f he hf
    · exact (hfun f (hlast ▸ hf)).1
  case unseen_function =>
    intro v f hf
    rw [h.symbol_eq] at hf
    split at hf
    · exact (hfun f hf).2
    · exact hb.unseen_function v f hf

section

variable {isFunction : Bool}

@[simp] theorem symbol_made (t : SymbolTable) (v : Nat) : (t.made s isFunction name).symbol v = t.symbol v := rfl

theorem entries_made (hs : s < t.scopes.size) (i : Nat) : (t.made s isFunction name).entries i = t.entries i := by
  simp only [entries, scope_made hs]
  split
  next hi => rw [scope_of_le (Nat.le_of_eq hi.symm)]
  next => split <;> rfl

theorem above_made (hs : s < t.scopes.size) (i : Nat) : ((t.made s isFunction name).scope i).above =
    if i = t.scopes.size then s :: (t.scope s).above else (t.scope i).above := by
  rw [scope_made hs]
  split
  · rfl
  · split <;> rfl

theorem grown_made (hs : s < t.scopes.size) : Grown frame t (t.made s isFunction name) where
  scopes_le := by simp
  symbols_le := Nat.le_refl _
  symbol_eq _ _ := rfl
  above_eq i hi := by rw [above_made hs, if_neg (by omega)]
  isFunction_eq i hi := by
    rw [scope_made hs, if_neg (by omega)]
    split <;> rfl
  named_eq i name v hv _ := by
    rw [SymbolTable.named?, entries_made hs]
    exact ⟨hv, rfl⟩
  cells_eq i hi _ := by
    rw [scope_made hs, if_neg (by omega)]
    split <;> rfl

theorem frameOf_made_block (hb : Built t) (hs : s < t.scopes.size) :
    (t.made s false name).frameOf t.scopes.size = t.frameOf s := by
  have hg : Grown 0 t (t.made s false name) := grown_made hs
  rw [← hg.toExtends.frameOf hb hs]
  have hnew : (t.made s false name).scope t.scopes.size = { name, isFunction := false, above := s :: (t.scope s).above } := by
    rw [scope_made hs, if_pos rfl]
  have habove : ((t.made s false name).scope s).above = (t.scope s).above := hg.above_eq s hs
  simp [frameOf, hnew, habove]

theorem frameOf_made_function (hs : s < t.scopes.size) :
    (t.made s true name).frameOf t.scopes.size = t.scopes.size := by
  simp [frameOf, scope_made hs]

theorem childrenBelow_made (hs : s < t.scopes.size) (i : Nat) :
    (t.made s isFunction name).childrenBelow i (t.scopes.size + 1) =
      t.childrenBelow i t.scopes.size ++ if i = s then [t.scopes.size] else [] := by
  simp only [childrenBelow, List.range_succ, List.filter_append, above_made hs]
  congr 1
  · refine List.filter_congr fun j hj => ?_
    rw [if_neg (Nat.ne_of_lt (List.mem_range.1 hj))]
  · by_cases hi : i = s
    · simp [hi]
    · simp [hi, Ne.symm hi]

/-- No scope has a later one around it. -/
theorem childrenBelow_of_le (hr : Rooted t) {i n : Nat} (hn : n ≤ i + 1) : t.childrenBelow i n = [] := by
  refine List.filter_eq_nil_iff.2 fun j hj => ?_
  have hlt := List.mem_range.1 hj
  intro hhead
  have := hr.above_lt j i (List.mem_of_head? (by simpa using hhead))
  omega

theorem rooted_made (hr : Rooted t) (hs : s < t.scopes.size) : Rooted (t.made s isFunction name) where
  root_lt := by simp
  root_above := by
    rw [above_made hs, if_neg (Nat.ne_of_lt hr.root_lt)]
    exact hr.root_above
  above_lt i a ha := by
    rw [above_made hs] at ha
    split at ha
    next hi =>
      obtain rfl | ha := List.mem_cons.1 ha
      · omega
      · have := hr.above_lt s a ha; omega
    next => exact hr.above_lt i a ha
  entry_lt i := by rw [entries_made hs]; exact hr.entry_lt i

theorem ordered_made (ho : Ordered t) (hs : s < t.scopes.size) : Ordered (t.made s isFunction name) where
  toRooted := rooted_made ho.toRooted hs
  children_eq i := by
    rw [size_made, childrenBelow_made hs, scope_made hs]
    split
    next hi =>
      subst hi
      rw [childrenBelow_of_le ho.toRooted (by omega), if_neg (by omega)]
      rfl
    next =>
      split
      next hi => subst hi; simp [ho.children_eq]
      next => simp [ho.children_eq]
  unseen := ho.unseen

theorem built_made (hb : Built t) (hs : s < t.scopes.size) : Built (t.made s isFunction name) := by
  constructor
  case toOrdered => exact ordered_made hb.toOrdered hs
  case owner => intro i j; rw [entries_made hs, entries_made hs]; exact hb.owner i j
  case name_eq => intro i; rw [entries_made hs]; exact hb.name_eq i
  case function_root => intro i; rw [entries_made hs]; exact hb.function_root i
  case unseen_function => exact hb.unseen_function

end

/-- Closing a scope changes none. -/
theorem grown_shut (t : SymbolTable) (s : Nat) : Grown frame t (t.shut s) :=
  ⟨⟨Nat.le_refl _, Nat.le_refl _, fun _ _ => rfl, fun _ _ => rfl, fun _ _ => rfl, fun _ _ _ h _ => ⟨h, rfl⟩⟩,
    fun _ _ _ => rfl⟩

theorem ordered_shut (ho : Ordered t) (s : Nat) : Ordered (t.shut s) :=
  ⟨⟨ho.root_lt, ho.root_above, ho.above_lt, ho.entry_lt⟩, ho.children_eq, ho.unseen⟩

theorem built_shut (hb : Built t) (s : Nat) : Built (t.shut s) :=
  ⟨ordered_shut hb.toOrdered s, hb.owner, hb.name_eq, hb.function_root, hb.unseen_function⟩

section

variable {codes : List Nat} {node : Nat} {type : CType}

theorem symbol_withString (t : SymbolTable) (v : Nat) : (t.withString codes node type size).symbol v =
    if v = t.symbols.size then stringSymbol node type (some (t.scope 0).cells) else t.symbol v :=
  symbol_push t (stringSymbol node type (some (t.scope 0).cells)) v

theorem symbols_withString (t : SymbolTable) : (t.withString codes node type size).symbols.size = t.symbols.size + 1 :=
  Array.size_push ..

/-- A string literal changes no scope but for the cells of the root. -/
theorem scope_withString_cells (h : 0 < t.scopes.size) (i : Nat) : (t.withString codes node type size).scope i =
    { t.scope i with cells := ((t.withString codes node type size).scope i).cells } := by
  rw [scope_withString h]
  split <;> rfl

theorem entries_withString (h : 0 < t.scopes.size) (i : Nat) :
    (t.withString codes node type size).entries i = t.entries i := by
  rw [entries, scope_withString_cells h]
  rfl

theorem extends_withString {kept : Symbol → Bool} (hb : Built t) :
    Extends kept t (t.withString codes node type size) where
  scopes_le := Nat.le_of_eq (size_modifyScope ..).symm
  symbols_le := by rw [symbols_withString]; omega
  symbol_eq v hv := by rw [symbol_withString, if_neg (by omega)]
  above_eq i _ := by rw [scope_withString_cells hb.root_lt]
  isFunction_eq i _ := by rw [scope_withString_cells hb.root_lt]
  named_eq i name v hv _ := by
    have hlt := hb.entry_lt i _ (mem_of_named? hv)
    rw [SymbolTable.named?, entries_withString hb.root_lt, symbol_withString, if_neg (Nat.ne_of_lt hlt)]
    exact ⟨hv, rfl⟩

theorem rooted_withString (hr : Rooted t) : Rooted (t.withString codes node type size) where
  root_lt := hr.root_lt.trans_eq (size_modifyScope ..).symm
  root_above := by rw [scope_withString_cells hr.root_lt]; exact hr.root_above
  above_lt i := by rw [scope_withString_cells hr.root_lt]; exact hr.above_lt i
  entry_lt i e he := by
    rw [entries_withString hr.root_lt] at he
    rw [symbols_withString]
    exact Nat.lt_succ_of_lt (hr.entry_lt i e he)

theorem ordered_withString (ho : Ordered t) : Ordered (t.withString codes node type size) where
  toRooted := rooted_withString ho.toRooted
  children_eq i := by
    have habove : ∀ i, ((t.withString codes node type size).scope i).above = (t.scope i).above := fun i => by
      rw [scope_withString_cells ho.root_lt]
    have hscopes : (t.withString codes node type size).scopes.size = t.scopes.size := size_modifyScope ..
    rw [scope_withString_cells ho.root_lt]
    simp only [ho.children_eq, childrenBelow, habove, hscopes]
  unseen v o hv := by
    rw [symbol_withString] at hv
    split at hv
    · cases hv; rfl
    · exact ho.unseen v o hv

theorem built_withString (hb : Built t) : Built (t.withString codes node type size) := by
  have hold : ∀ i, ∀ e ∈ t.entries i, (t.withString codes node type size).symbol e.2 = t.symbol e.2 := fun i e he => by
    rw [symbol_withString, if_neg (Nat.ne_of_lt (hb.entry_lt i e he))]
  constructor
  case toOrdered => exact ordered_withString hb.toOrdered
  case owner => intro i j; rw [entries_withString hb.root_lt, entries_withString hb.root_lt]; exact hb.owner i j
  case name_eq =>
    intro i e he
    rw [entries_withString hb.root_lt] at he
    rw [hold i e he]
    exact hb.name_eq i e he
  case function_root =>
    intro i e f he hf
    rw [entries_withString hb.root_lt] at he
    rw [hold i e he] at hf
    exact hb.function_root i e f he hf
  case unseen_function =>
    intro v f hf
    rw [symbol_withString] at hf
    split at hf
    · cases hf
    · exact hb.unseen_function v f hf

end

end SymbolTable

end MiniC
