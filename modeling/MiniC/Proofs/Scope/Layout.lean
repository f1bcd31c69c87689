import Mathlib
import MiniC.Proofs.Scope.Growth

/-!
# Frame layout

A table is filled by opening and closing scopes and by inserting symbols. Each variable and each string literal is
allocated in a frame, at the cells behind those that the frame has given out before: `Allots` says what one operation
does to the frames, and `LaidOut` what therefore holds of all allocations after any number of operations.
-/

namespace MiniC.SymbolTable

/-! ## Operations -/

/-- The operations that fill a table. -/
inductive Operation where
  | openScope (isFunction : Bool) (name : Option String)
  | closeScope
  | insertObject (o : ObjectSymbol)
  | insertFunction (f : FunctionSymbol)
  | insertString (raw : String) (codes : List Nat) (node : Nat) (type : CType)

/-- A variable or a string literal, with the frame that holds its cells. -/
structure Allocation where
  frame : Nat
  symbol : Nat
  deriving DecidableEq

namespace Operation

/-- Performs an operation, and says what it allocated: a variable in the frame of the open scope, a string literal
among the globals, unless its text is there already. -/
def perform : Operation → TableM (Option Allocation)
  | openScope isFunction name => do
    SymbolTable.openScope isFunction name
    return none
  | closeScope => do
    SymbolTable.closeScope
    return none
  | insertObject o => do
    let s ← currentScope
    let t ← get
    let v ← SymbolTable.insertObject o
    return some ⟨t.frameOf s, v⟩
  | insertFunction f => do
    let _ ← SymbolTable.insertFunction f
    return none
  | insertString raw codes node type => do
    let t ← get
    SymbolTable.insertString raw codes node type
    if (t.findString (raw.toList.map Char.toNat)).isSome then return none
    return ((← get).findString codes).map (⟨0, ·⟩)

/-- Performs operations, and says what they allocated. -/
def performAll : List Operation → TableM (List Allocation)
  | [] => pure []
  | op :: ops => do
    let a ← op.perform
    let as ← performAll ops
    return a.toList ++ as

/-- What is inserted has a natural number as its size. -/
def HasSize : Operation → Prop
  | insertObject o => ∃ k : Nat, o.type.size = .ok (k : Int)
  | insertString _ _ _ type => ∃ k : Nat, type.size = .ok (k : Int)
  | _ => True

/-- The number of open scopes besides the root, after an operation. -/
def depth (d : Nat) : Operation → Nat
  | openScope .. => d + 1
  | closeScope => d - 1
  | _ => d

/-- An operation closes no other scope than one that was opened. -/
def fits (d : Nat) : Operation → Bool
  | closeScope => 0 < d
  | _ => true

def nested : Nat → List Operation → Bool
  | _, [] => true
  | d, op :: ops => op.fits d && nested (op.depth d) ops

end Operation

open Operation

variable {t t1 t' : SymbolTable} {s v d : Nat} {as : List Allocation} {r : Option Allocation}

/-- The cells of a symbol are those from an address on, as many as its type says. -/
def Occupies (t : SymbolTable) (v address size : Nat) : Prop :=
  (t.symbol v).address = some (address : Int) ∧ (t.symbol v).type.size = .ok (size : Int)

/-! ## Scopes that are open -/

/-- The scope tree while a table is filled, with some scopes open besides the root. -/
structure Opened (d : Nat) (t : SymbolTable) : Prop extends Rooted t where
  filling : t.replaying = false
  above_eq : ∀ s a rest, (t.scope s).above = a :: rest → (t.scope a).above = rest
  current : ∃ s < t.scopes.size, t.current = some s ∧ (t.scope s).above.length = d
  cells : ∀ s, ∃ k : Nat, (t.scope s).cells = k

theorem Opened.frameOf_frameOf (h : Opened d t) (s : Nat) : t.frameOf (t.frameOf s) = t.frameOf s := by
  have hself : ∀ f, ((t.scope f).isFunction || (t.scope f).above.isEmpty) = true → t.frameOf f = f := by
    intro f hf
    simp only [frameOf, List.find?_cons, hf, Option.getD_some]
  refine hself _ ?_
  unfold frameOf
  cases hfind : (s :: (t.scope s).above).find? fun s => (t.scope s).isFunction || (t.scope s).above.isEmpty with
  | none => simp [h.root_above]
  | some f => simpa using List.find?_some hfind

/-! ## Steps -/

/-- A symbol is new, and its cells are those behind the cells of its frame. -/
structure Allocated (t t' : SymbolTable) (a : Allocation) : Prop where
  symbol : a.symbol = t.symbols.size
  symbol_lt : a.symbol < t'.symbols.size
  frame_lt : a.frame < t.scopes.size
  frameOf : t.frameOf a.frame = a.frame
  address : (t'.symbol a.symbol).address = some (t.scope a.frame).cells
  cells : ∃ k : Nat, (t'.symbol a.symbol).type.size = .ok (k : Int) ∧
    (t'.scope a.frame).cells = (t.scope a.frame).cells + k

/-- One operation: what it allocates is new, and all else is as it was. -/
structure Allots (t : SymbolTable) (r : Option Allocation) (t' : SymbolTable) : Prop where
  scopes_le : t.scopes.size ≤ t'.scopes.size
  symbols_le : t.symbols.size ≤ t'.symbols.size
  symbol_eq : ∀ v < t.symbols.size, t'.symbol v = t.symbol v
  frameOf_eq : ∀ s < t.scopes.size, t'.frameOf s = t.frameOf s
  cells_eq : ∀ s, (∀ a ∈ r, a.frame ≠ s) → (t'.scope s).cells = (t.scope s).cells
  new : ∀ a ∈ r, Allocated t t' a
  objects : ∀ v o, t.symbols.size ≤ v → v < t'.symbols.size → t'.symbol v = .object o → ∃ a ∈ r, a.symbol = v
  entries : ∀ s, ∀ e ∈ t'.entries s, e ∈ t.entries s ∨
    s < t.scopes.size ∧ e.2 = t.symbols.size ∧ ∀ a ∈ r, a.frame = t.frameOf s
  strings : ∀ e ∈ t'.strings, e ∈ t.strings ∨ ∃ a ∈ r, a.symbol = e.2 ∧ a.frame = 0

theorem Allots.refl (t : SymbolTable) : Allots t none t :=
  ⟨Nat.le_refl _, Nat.le_refl _, fun _ _ => rfl, fun _ _ => rfl, fun _ _ => rfl, by simp,
    fun _ _ hle hlt _ => absurd hlt (Nat.not_lt.2 hle), fun _ _ he => .inl he, fun _ he => .inl he⟩

/-! ### Opening and closing -/

theorem Opened.made {isFunction : Bool} {name : Option String} (h : Opened d t) (hs : s < t.scopes.size)
    (hd : (t.scope s).above.length = d) : Opened (d + 1) (t.made s isFunction name) := by
  constructor
  case toRooted => exact rooted_made h.toRooted hs
  case filling => exact h.filling
  case above_eq =>
    intro i a rest ha
    rw [above_made hs] at ha
    split at ha
    next hi =>
      obtain ⟨rfl, rfl⟩ := List.cons.inj ha
      rw [above_made hs, if_neg (by omega)]
    next hi =>
      have hi : i < t.scopes.size := by
        by_contra hge
        rw [scope_of_le (Nat.le_of_not_lt hge)] at ha
        cases ha
      have := h.above_lt i a (by rw [ha]; exact List.mem_cons_self ..)
      rw [above_made hs, if_neg (by omega)]
      exact h.above_eq i a rest ha
  case current =>
    refine ⟨t.scopes.size, by simp, rfl, ?_⟩
    rw [above_made hs, if_pos rfl, List.length_cons, hd]
  case cells =>
    intro i
    rw [scope_made hs]
    split
    · exact ⟨0, rfl⟩
    · split <;> exact h.cells i

theorem Opened.allots_made {isFunction : Bool} {name : Option String} (h : Opened d t) (hs : s < t.scopes.size) :
    Allots t none (t.made s isFunction name) := by
  have hg : Grown 0 t (t.made s isFunction name) := grown_made hs
  constructor
  case scopes_le => exact hg.scopes_le
  case symbols_le => exact Nat.le_refl _
  case symbol_eq => exact fun _ _ => rfl
  case frameOf_eq => exact fun i hi => h.frameOf_congr hi hg.above_eq hg.isFunction_eq
  case cells_eq =>
    intro i _
    rw [scope_made hs]
    split
    next hi => rw [scope_of_le (Nat.le_of_eq hi.symm)]
    next => split <;> rfl
  case new => simp
  case objects => exact fun v o hle hlt _ => absurd hlt (Nat.not_lt.2 hle)
  case entries =>
    intro i e he
    rw [entries_made hs] at he
    exact .inl he
  case strings => exact fun e he => .inl he

theorem Opened.shut (h : Opened (d + 1) t) (hc : t.current = some s) : Opened d (t.shut s) := by
  obtain ⟨s', hs', hc', hd⟩ := h.current
  obtain rfl : s' = s := Option.some.inj (hc'.symm.trans hc)
  obtain ⟨a, rest, ha⟩ := List.exists_cons_of_length_eq_add_one hd
  have hlt := h.above_lt s' a (by rw [ha]; exact List.mem_cons_self ..)
  refine ⟨⟨h.root_lt, h.root_above, h.above_lt, h.entry_lt⟩, h.filling, h.above_eq, ⟨a, Nat.lt_trans hlt hs', ?_, ?_⟩, h.cells⟩
  · simp [SymbolTable.shut, ha]
  · have hrest : (t.scope a).above = rest := h.above_eq s' a rest ha
    have hlen : rest.length = d := by simpa [ha] using hd
    exact (congrArg List.length hrest).trans hlen

theorem allots_shut (t : SymbolTable) (s : Nat) : Allots t none (t.shut s) := { Allots.refl t with new := nofun }

/-! ### Symbols in the open scope -/

section

variable {frame k : Nat} {x : Symbol}

theorem Enters.opened (he : Enters t s frame k x t') (h : Opened d t) : Opened d t' where
  toRooted := he.rooted h.toRooted
  filling := he.replaying.trans h.filling
  above_eq i a rest ha := (he.above a).trans (h.above_eq i a rest ((he.above i).symm.trans ha))
  current := by
    obtain ⟨i, hi, hc, hd⟩ := h.current
    exact ⟨i, he.scopes ▸ hi, he.current.trans hc, (congrArg List.length (he.above i)).trans hd⟩
  cells i := by
    obtain ⟨n, hn⟩ := h.cells i
    refine ⟨n + if i = frame then k else 0, ?_⟩
    rw [he.cells, hn]
    split <;> simp

/-- What entering a symbol does to the frames, if it is known what it does for the new symbol. -/
theorem Enters.allots (he : Enters t s frame k x t') (h : Opened d t) (hs : s < t.scopes.size)
    (hnone : r = none → k = 0) (hframe : ∀ a ∈ r, a = ⟨t.frameOf s, t.symbols.size⟩ ∧ frame = t.frameOf s ∧
      x.address = some (t.scope frame).cells ∧ x.type.size = .ok (k : Int))
    (hobject : ∀ o, x = .object o → r ≠ none) : Allots t r t' := by
  have hlast : t'.symbol t.symbols.size = x := by rw [he.symbol_eq, if_pos rfl]
  constructor
  case scopes_le => exact Nat.le_of_eq he.scopes.symm
  case symbols_le => rw [he.symbols]; omega
  case symbol_eq => intro v hv; rw [he.symbol_eq, if_neg (by omega)]
  case frameOf_eq => exact fun i hi => h.frameOf_congr hi (fun j _ => he.above j) fun j _ => he.isFunction j
  case cells_eq =>
    intro i hi
    rw [he.cells]
    cases r with
    | none => simp [hnone rfl]
    | some a =>
      obtain ⟨rfl, hf, -, -⟩ := hframe a rfl
      have hne : frame ≠ i := hf ▸ hi _ rfl
      simp [hne.symm]
  case new =>
    intro a ha
    obtain ⟨rfl, rfl, haddress, hsize⟩ := hframe a ha
    refine ⟨rfl, by rw [he.symbols]; exact Nat.lt_succ_self _, h.frameOf_lt hs, h.frameOf_frameOf s, ?_, k, ?_, ?_⟩
    · rw [hlast]; exact haddress
    · rw [hlast]; exact hsize
    · rw [he.cells, if_pos rfl]
  case objects =>
    intro v o hle hlt ho
    obtain rfl : v = t.symbols.size := by rw [he.symbols] at hlt; omega
    cases r with
    | none => exact absurd rfl (hobject o (hlast.symm.trans ho))
    | some a =>
      obtain ⟨rfl, -⟩ := hframe a rfl
      exact ⟨_, rfl, rfl⟩
  case entries =>
    intro i e hmem
    obtain hmem | ⟨rfl, rfl⟩ := he.mem_entries hmem
    · exact .inl hmem
    · refine .inr ⟨hs, rfl, fun a ha => ?_⟩
      obtain ⟨rfl, -⟩ := hframe a ha
      rfl
  case strings => exact fun e hmem => .inl (he.strings ▸ hmem)

end

/-! ### String literals -/

section

variable {raw : String} {codes : List Nat} {node k : Nat} {type : CType}

theorem mem_withText {strings : Array (List Nat × Nat)} {e : List Nat × Nat} (h : e ∈ withText strings codes v) :
    e ∈ strings ∨ e = (codes, v) := by
  unfold withText at h
  split at h
  · exact (Array.mem_or_eq_of_mem_setIfInBounds h)
  · simpa using h

theorem find?_withText (strings : Array (List Nat × Nat)) (codes : List Nat) (v : Nat) :
    (withText strings codes v).find? (·.1 == codes) = some (codes, v) := by
  unfold withText
  split
  next i hi =>
    obtain ⟨hlt, -, hbefore⟩ := Array.findIdx?_eq_some_iff_getElem.1 hi
    refine Array.find?_eq_some_iff_getElem.2 ⟨by simp, i, by simpa using hlt, by simp, fun j hj => ?_⟩
    have hne : i ≠ j := by omega
    have hj' : j < strings.size := by omega
    rw [Array.getElem_setIfInBounds hj', if_neg hne]
    simpa using hbefore j hj
  next hnone =>
    have hno : strings.find? (·.1 == codes) = none := by
      simpa [Array.findIdx?_eq_none_iff] using hnone
    simp [hno]

theorem Opened.withString (h : Opened d t) : Opened d (t.withString codes node type k) := by
  have habove : ∀ i, ((t.withString codes node type k).scope i).above = (t.scope i).above := fun i => by
    rw [scope_withString_cells h.root_lt]
  constructor
  case toRooted => exact rooted_withString h.toRooted
  case filling => exact h.filling
  case above_eq => intro i a rest ha; rw [habove] at ha ⊢; exact h.above_eq i a rest ha
  case current =>
    obtain ⟨s, hs, hc, hd⟩ := h.current
    exact ⟨s, hs.trans_eq (size_modifyScope ..).symm, hc, by rw [habove]; exact hd⟩
  case cells =>
    intro i
    obtain ⟨n, hn⟩ := h.cells i
    rw [scope_withString h.root_lt]
    split
    · exact ⟨n + k, by simp [hn]⟩
    · exact ⟨n, hn⟩

theorem Opened.allots_withString (h : Opened d t) (hk : type.size = .ok (k : Int)) :
    Allots t (some ⟨0, t.symbols.size⟩) (t.withString codes node type k) := by
  constructor
  case scopes_le => exact Nat.le_of_eq (size_modifyScope ..).symm
  case symbols_le => rw [symbols_withString]; omega
  case symbol_eq => intro v hv; rw [symbol_withString, if_neg (by omega)]
  case frameOf_eq =>
    refine fun i hi => h.frameOf_congr hi (fun j _ => ?_) fun j _ => ?_ <;> rw [scope_withString_cells h.root_lt]
  case cells_eq =>
    intro i hi
    have hne : i ≠ 0 := Ne.symm (hi _ rfl)
    rw [scope_withString h.root_lt, if_neg hne]
  case new =>
    intro a ha
    cases ha
    have hframe : t.frameOf 0 = 0 := by simp [frameOf, h.root_above]
    refine ⟨rfl, by rw [symbols_withString]; exact Nat.lt_succ_self _, h.root_lt, hframe, ?_, k, ?_, ?_⟩
    · rw [symbol_withString, if_pos rfl]; rfl
    · rw [symbol_withString, if_pos rfl]; exact hk
    · rw [scope_withString h.root_lt, if_pos rfl]
  case objects =>
    intro v o hle hlt _
    obtain rfl : v = t.symbols.size := by rw [symbols_withString] at hlt; omega
    exact ⟨_, rfl, rfl⟩
  case entries => exact fun i e he => .inl (entries_withString h.root_lt i ▸ he)
  case strings =>
    intro e he
    obtain he | rfl := mem_withText he
    · exact .inl he
    · exact .inr ⟨_, rfl, rfl, rfl⟩

end

/-! ### Every operation -/

/-- An operation that fits never fails, and it does what `Allots` says. -/
theorem Opened.perform {op : Operation} (h : Opened d t) (hfits : op.fits d = true) (hsize : op.HasSize) :
    ∃ r t', Runs op.perform t r t' ∧ Opened (op.depth d) t' ∧ Allots t r t' := by
  obtain ⟨s, hs, hc, hd⟩ := h.current
  cases op with
  | openScope isFunction name =>
    refine ⟨none, _, runs_bind.2 ⟨(), _, (runs_openScope h.filling hc).2 rfl, runs_pure.2 ⟨rfl, rfl⟩⟩, ?_, h.allots_made hs⟩
    exact h.made hs hd
  | closeScope =>
    have hpos : 0 < d := by simpa [fits] using hfits
    obtain ⟨d, rfl⟩ := Nat.exists_eq_succ_of_ne_zero (Nat.ne_of_gt hpos)
    exact ⟨none, _, runs_bind.2 ⟨(), _, (runs_closeScope hc).2 rfl, runs_pure.2 ⟨rfl, rfl⟩⟩, h.shut hc, allots_shut t s⟩
  | insertObject o =>
    obtain ⟨k, hk⟩ := hsize
    have hruns := (runs_insertObject_iff hc).2 ⟨rfl, (k : Int), hk, rfl⟩
    obtain ⟨-, size, hsize, he⟩ := runs_insertObject hc hs (h.frameOf_lt hs) hruns
    obtain rfl : (k : Int) = size := Except.ok.inj (hk.symm.trans hsize)
    refine ⟨some ⟨t.frameOf s, t.symbols.size⟩, _, ?_, he.opened h, ?_⟩
    · exact runs_bind.2 ⟨s, t, (runs_currentScope hc).2 ⟨rfl, rfl⟩, runs_get_bind.2
        (runs_bind.2 ⟨_, _, hruns, runs_pure.2 ⟨rfl, rfl⟩⟩)⟩
    · refine he.allots h hs nofun (fun a ha => ?_) fun _ _ => nofun
      cases ha
      exact ⟨rfl, rfl, rfl, hk⟩
  | insertFunction f =>
    have hruns := (runs_insertFunction_iff (f := f) hc).2 ⟨rfl, rfl⟩
    obtain ⟨-, he⟩ := runs_insertFunction hc hs hruns
    refine ⟨none, _, runs_bind.2 ⟨_, _, hruns, runs_pure.2 ⟨rfl, rfl⟩⟩, ?_, ?_⟩
    · exact Enters.opened (k := 0) he h
    · exact Enters.allots (k := 0) he h hs (fun _ => rfl) nofun nofun
  | insertString raw codes node type =>
    obtain ⟨k, hk⟩ := hsize
    cases hfind : t.findString (raw.toList.map Char.toNat) with
    | some v =>
      refine ⟨none, t, ?_, h, ?_⟩
      · simp [Operation.perform, SymbolTable.insertString, hfind]
      · exact .refl t
    | none =>
      refine ⟨some ⟨0, t.symbols.size⟩, t.withString codes node type k, ?_, h.withString, h.allots_withString hk⟩
      have hnew : (t.withString codes node type k).findString codes = some t.symbols.size :=
        Option.map_eq_some_iff.2 ⟨_, find?_withText t.strings codes t.symbols.size, rfl⟩
      refine runs_get_bind.2 (runs_bind.2 ⟨(), _, (runs_insertString hfind).2 ⟨k, hk, rfl⟩, ?_⟩)
      simp [hfind, hnew]

/-! ## All allocations -/

/-- The allocations of a table that was filled. -/
structure LaidOut (as : List Allocation) (t : SymbolTable) : Prop where
  /-- An allocation is in a frame. -/
  frame : ∀ a ∈ as, a.frame < t.scopes.size ∧ t.frameOf a.frame = a.frame
  symbol_lt : ∀ a ∈ as, a.symbol < t.symbols.size
  /-- Its cells are cells of the frame. -/
  inside : ∀ a ∈ as, ∃ address size : Nat, t.Occupies a.symbol address size ∧ address + size ≤ t.cellsOf a.frame
  /-- What is allocated later in the same frame begins behind it. -/
  ordered : as.Pairwise fun a b => a.symbol ≠ b.symbol ∧ (a.frame = b.frame → ∀ x n y k,
    t.Occupies a.symbol x n → t.Occupies b.symbol y k → x + n ≤ y)
  /-- Every variable and string literal is allocated. -/
  objects : ∀ v o, v < t.symbols.size → t.symbol v = .object o → ∃ a ∈ as, a.symbol = v
  /-- The variables of a scope are in the frame of that scope. -/
  entries : ∀ s, ∀ e ∈ t.entries s, ∀ a ∈ as, a.symbol = e.2 → a.frame = t.frameOf s
  /-- String literals are among the globals. -/
  strings : ∀ e ∈ t.strings, ∃ a ∈ as, a.symbol = e.2 ∧ a.frame = 0

theorem laidOut_start : LaidOut [] {} := by
  constructor <;> simp [entries_empty]

theorem opened_start : Opened 0 {} := by
  constructor
  case toRooted => exact rooted_empty
  case filling => rfl
  case above_eq => simp [scope_empty]
  case current => exact ⟨0, Nat.one_pos, rfl, rfl⟩
  case cells => exact fun s => ⟨0, by rw [scope_empty]; rfl⟩

theorem Occupies.congr {address size : Nat} (h : t'.symbol v = t.symbol v) :
    t'.Occupies v address size ↔ t.Occupies v address size := by
  simp only [Occupies, h]

/-- A frame never has fewer cells. -/
theorem Allots.cells_le (h : Allots t r t') {f : Nat} (hf : f < t.scopes.size) : t.cellsOf f ≤ t'.cellsOf f := by
  rw [cellsOf, cellsOf, h.frameOf_eq f hf]
  by_cases hnew : ∃ a ∈ r, a.frame = t.frameOf f
  · obtain ⟨a, ha, heq⟩ := hnew
    obtain ⟨k, -, hk⟩ := (h.new a ha).cells
    rw [← heq]
    omega
  · rw [h.cells_eq _ fun a ha heq => hnew ⟨a, ha, heq⟩]

/-- One operation keeps the layout. -/
theorem LaidOut.step (h : LaidOut as t) (ho : Opened d t) (hr : Allots t r t') : LaidOut (as ++ r.toList) t' := by
  have hold : ∀ a ∈ as, ∀ address size, t'.Occupies a.symbol address size ↔ t.Occupies a.symbol address size :=
    fun a ha _ _ => Occupies.congr (hr.symbol_eq _ (h.symbol_lt a ha))
  have hnew : ∀ a ∈ r.toList, Allocated t t' a := fun a ha => hr.new a (by simpa using ha)
  constructor
  case frame =>
    intro a ha
    obtain ha | ha := List.mem_append.1 ha
    · obtain ⟨hlt, hframe⟩ := h.frame a ha
      exact ⟨Nat.lt_of_lt_of_le hlt hr.scopes_le, (hr.frameOf_eq _ hlt).trans hframe⟩
    · have hlt := (hnew a ha).frame_lt
      exact ⟨Nat.lt_of_lt_of_le hlt hr.scopes_le, (hr.frameOf_eq _ hlt).trans (hnew a ha).frameOf⟩
  case symbol_lt =>
    intro a ha
    obtain ha | ha := List.mem_append.1 ha
    · exact Nat.lt_of_lt_of_le (h.symbol_lt a ha) hr.symbols_le
    · exact (hnew a ha).symbol_lt
  case inside =>
    intro a ha
    obtain ha | ha := List.mem_append.1 ha
    · obtain ⟨address, size, hocc, hle⟩ := h.inside a ha
      exact ⟨address, size, (hold a ha _ _).2 hocc, Int.le_trans hle (hr.cells_le (h.frame a ha).1)⟩
    · obtain ⟨k, hk, hmore⟩ := (hnew a ha).cells
      obtain ⟨n, hn⟩ := ho.cells a.frame
      refine ⟨n, k, ⟨(hnew a ha).address.trans (congrArg some hn), hk⟩, ?_⟩
      rw [cellsOf, hr.frameOf_eq _ (hnew a ha).frame_lt, (hnew a ha).frameOf, hmore, hn]
  case ordered =>
    refine List.pairwise_append.2 ⟨?_, ?_, fun a ha b hb => ⟨?_, ?_⟩⟩
    · refine h.ordered.imp_of_mem fun {a b} ha hb hab => ⟨hab.1, fun hframe x n y k hx hy => ?_⟩
      exact hab.2 hframe x n y k ((hold a ha _ _).1 hx) ((hold b hb _ _).1 hy)
    · cases r <;> simp
    · rw [(hnew b hb).symbol]
      exact Nat.ne_of_lt (h.symbol_lt a ha)
    -- the new cells begin where the frame ended, and the old ones are inside of it
    · intro hframe x n y k hx hy
      obtain ⟨address, size, hocc, hle⟩ := h.inside a ha
      obtain ⟨haddress, hsize⟩ := (hold a ha _ _).1 hx
      have hx : (address : Int) = x := Option.some.inj (hocc.1.symm.trans haddress)
      have hn : (size : Int) = n := Except.ok.inj (hocc.2.symm.trans hsize)
      have hy : (y : Int) = (t.scope b.frame).cells := by simpa [(hnew b hb).address] using hy.1.symm
      rw [cellsOf, (h.frame a ha).2, hframe, ← hy] at hle
      omega
  case objects =>
    intro v o hlt hv
    by_cases hlt' : v < t.symbols.size
    · rw [hr.symbol_eq v hlt'] at hv
      obtain ⟨a, ha, heq⟩ := h.objects v o hlt' hv
      exact ⟨a, List.mem_append_left _ ha, heq⟩
    · obtain ⟨a, ha, heq⟩ := hr.objects v o (Nat.le_of_not_lt hlt') hlt hv
      exact ⟨a, List.mem_append_right _ (by simpa using ha), heq⟩
  case entries =>
    intro s e he a ha hsymbol
    have hfresh : ∀ a ∈ as, a.symbol ≠ t.symbols.size := fun a ha => Nat.ne_of_lt (h.symbol_lt a ha)
    obtain he | ⟨hs, heq, hframe⟩ := hr.entries s e he
    · have hs : s < t.scopes.size := by
        by_contra hge
        rw [SymbolTable.entries, scope_of_le (Nat.le_of_not_lt hge)] at he
        simp at he
      rw [hr.frameOf_eq s hs]
      obtain ha | ha := List.mem_append.1 ha
      · exact h.entries s e he a ha hsymbol
      · have := ho.entry_lt s e he
        rw [← hsymbol, (hnew a ha).symbol] at this
        omega
    · rw [hr.frameOf_eq s hs]
      obtain ha | ha := List.mem_append.1 ha
      · exact absurd (hsymbol.trans heq) (hfresh a ha)
      · exact hframe a (by simpa using ha)
  case strings =>
    intro e he
    obtain he | ⟨a, ha, heq⟩ := hr.strings e he
    · obtain ⟨a, ha, heq⟩ := h.strings e he
      exact ⟨a, List.mem_append_left _ ha, heq⟩
    · exact ⟨a, List.mem_append_right _ (by simpa using ha), heq⟩

/-- Operations that fit never fail; they keep the layout, and what was allocated before stays where it is. -/
theorem LaidOut.performAll {ops : List Operation} (h : LaidOut as t) (ho : Opened d t) (hnested : nested d ops = true)
    (hsize : ∀ op ∈ ops, op.HasSize) :
    ∃ bs t', Runs (performAll ops) t bs t' ∧ Opened (ops.foldl Operation.depth d) t' ∧ LaidOut (as ++ bs) t' ∧
      ∀ v < t.symbols.size, t'.symbol v = t.symbol v := by
  induction ops generalizing as t d with
  | nil => exact ⟨[], t, runs_pure.2 ⟨rfl, rfl⟩, ho, by simpa using h, fun _ _ => rfl⟩
  | cons op ops ih =>
    obtain ⟨hfits, hnested⟩ : op.fits d = true ∧ nested (op.depth d) ops = true := by simpa [nested] using hnested
    obtain ⟨r, t1, hruns, ho1, hr⟩ := ho.perform hfits (hsize op (List.mem_cons_self ..))
    obtain ⟨bs, t', hruns', ho', h', hkeep⟩ := ih (h.step ho hr) ho1 hnested fun op hop =>
      hsize op (List.mem_cons_of_mem _ hop)
    refine ⟨r.toList ++ bs, t', ?_, ho', by simpa using h', fun v hv => ?_⟩
    · exact runs_bind.2 ⟨r, t1, hruns, runs_bind.2 ⟨bs, t', hruns', runs_pure.2 ⟨rfl, rfl⟩⟩⟩
    · rw [hkeep v (Nat.lt_of_lt_of_le hv hr.symbols_le), hr.symbol_eq v hv]

theorem nested_append {ops more : List Operation} (h : nested d (ops ++ more) = true) :
    nested d ops = true ∧ nested (ops.foldl Operation.depth d) more = true := by
  induction ops generalizing d with
  | nil => exact ⟨rfl, h⟩
  | cons op ops ih =>
    obtain ⟨hfits, h⟩ : op.fits d = true ∧ nested (op.depth d) (ops ++ more) = true := by simpa [nested] using h
    obtain ⟨hops, hmore⟩ := ih h
    exact ⟨by simp [nested, hfits, hops], hmore⟩

/-- Two allocations in one frame have no cell in common. -/
theorem LaidOut.disjoint (h : LaidOut as t) {a b : Allocation} (ha : a ∈ as) (hb : b ∈ as) (hne : a.symbol ≠ b.symbol)
    (hframe : a.frame = b.frame) {x n y k : Nat} (hx : t.Occupies a.symbol x n) (hy : t.Occupies b.symbol y k) :
    Disjoint (Set.Ico x (x + n)) (Set.Ico y (y + k)) := by
  have hapart : x + n ≤ y ∨ y + k ≤ x := by
    obtain ⟨i, hi, rfl⟩ := List.getElem_of_mem ha
    obtain ⟨j, hj, rfl⟩ := List.getElem_of_mem hb
    have hpairs := List.pairwise_iff_getElem.1 h.ordered
    rcases Nat.lt_trichotomy i j with hij | rfl | hji
    · exact .inl ((hpairs i j hi hj hij).2 hframe x n y k hx hy)
    · exact absurd rfl hne
    · exact .inr ((hpairs j i hj hi hji).2 hframe.symm y k x n hy hx)
  refine Set.disjoint_left.2 fun c hc hc' => ?_
  have := hc.1
  have := hc.2
  have := hc'.1
  have := hc'.2
  omega

/-- The layout of frames: after any operations, all that was allocated lies inside its frame and apart from what else
is in it, and later operations change no address. -/
theorem frame_layout (ops more : List Operation) (hnested : nested 0 (ops ++ more) = true)
    (hsize : ∀ op ∈ ops ++ more, op.HasSize) :
    ∃ as t bs t', Runs (performAll ops) {} as t ∧ Runs (performAll more) t bs t' ∧ LaidOut as t ∧
      (∀ a ∈ as, ∀ b ∈ as, a.symbol ≠ b.symbol → a.frame = b.frame → ∀ x n y k, t.Occupies a.symbol x n →
        t.Occupies b.symbol y k → Disjoint (Set.Ico x (x + n)) (Set.Ico y (y + k))) ∧
      ∀ a ∈ as, (t'.symbol a.symbol).address = (t.symbol a.symbol).address := by
  obtain ⟨hops, hmore⟩ := nested_append hnested
  obtain ⟨as, t, hruns, ho, h, -⟩ := laidOut_start.performAll opened_start hops fun op hop =>
    hsize op (List.mem_append_left _ hop)
  rw [List.nil_append] at h
  obtain ⟨bs, t', hruns', -, -, hkeep⟩ := h.performAll ho hmore fun op hop => hsize op (List.mem_append_right _ hop)
  refine ⟨as, t, bs, t', hruns, hruns', h, fun a ha b hb hne hframe x n y k hx hy => ?_, fun a ha => ?_⟩
  · exact h.disjoint ha hb hne hframe hx hy
  · rw [hkeep _ (h.symbol_lt a ha)]

/-- A function with a variable, and a block in it with an array and a string literal. -/
def sampleOperations : List Operation :=
  let int (name : String) (layers : List Layer) : ObjectSymbol :=
    ⟨some name, 0, (0, 0), true, .declared .int false layers false, none, 0⟩
  [.openScope true (some "f"), .insertObject (int "x" []), .openScope false none, .insertObject (int "a" [⟨.length 3, false⟩]),
    .insertString "hi" [104, 105] 0 (.declared .char false [⟨.length 3, false⟩] false)]

theorem frame_layout_sample : ∃ as t, nested 0 (sampleOperations ++ [.closeScope, .closeScope]) = true ∧
    Runs (performAll sampleOperations) {} as t ∧ LaidOut as t ∧ as = [⟨1, 0⟩, ⟨1, 1⟩, ⟨0, 2⟩] := by
  have hnested : nested 0 (sampleOperations ++ [.closeScope, .closeScope]) = true := by decide
  have hsize : ∀ op ∈ sampleOperations ++ [.closeScope, .closeScope], op.HasSize := by
    simp only [sampleOperations, List.cons_append, List.nil_append, List.forall_mem_cons]
    exact ⟨trivial, ⟨1, rfl⟩, trivial, ⟨3, rfl⟩, ⟨3, rfl⟩, trivial, trivial, by simp⟩
  have hout : (outcome (performAll sampleOperations) {}).1.toOption = some [⟨1, 0⟩, ⟨1, 1⟩, ⟨0, 2⟩] := by decide +kernel
  obtain ⟨as, t, -, -, hruns, -, h, -⟩ := frame_layout sampleOperations [.closeScope, .closeScope] hnested hsize
  rw [hruns] at hout
  exact ⟨as, t, hnested, hruns, h, Option.some.inj hout⟩

end MiniC.SymbolTable
