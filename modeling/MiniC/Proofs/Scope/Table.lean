import MiniC.Proofs.Pass.Run

/-!
# Operations on symbol tables

What the operations do to a table, as seen through `scope` and `symbol`: making a scope, closing one, and putting
a symbol into the open scope.
-/

namespace MiniC.SymbolTable

variable {name : Option String} {f : FunctionSymbol} {old : Symbol}

variable {t t' : SymbolTable} {s i v : Nat}

/-! ## Parts of a table -/

theorem scope_modifyScope (t : SymbolTable) (s : Nat) (f : Scope → Scope) (i : Nat) :
    (t.modifyScope s f).scope i = if i = s ∧ s < t.scopes.size then f (t.scope i) else t.scope i := by
  simp only [scope, modifyScope, Array.getElem?_modify]
  by_cases hi : s = i
  · subst hi
    by_cases hlt : s < t.scopes.size
    · simp [hlt]
    · simp [hlt]
  · simp [hi, Ne.symm hi]

@[simp] theorem symbol_modifyScope (t : SymbolTable) (s : Nat) (f : Scope → Scope) (v : Nat) :
    (t.modifyScope s f).symbol v = t.symbol v := rfl

@[simp] theorem size_modifyScope (t : SymbolTable) (s : Nat) (f : Scope → Scope) :
    (t.modifyScope s f).scopes.size = t.scopes.size := by simp [modifyScope]

theorem symbol_modifySymbol (t : SymbolTable) (v : Nat) (f : Symbol → Symbol) (i : Nat) :
    (t.modifySymbol v f).symbol i = if i = v ∧ v < t.symbols.size then f (t.symbol i) else t.symbol i := by
  simp only [symbol, modifySymbol, Array.getElem?_modify]
  by_cases hi : v = i
  · subst hi
    by_cases hlt : v < t.symbols.size
    · simp [hlt]
    · simp [hlt]
  · simp [hi, Ne.symm hi]

@[simp] theorem scope_modifySymbol (t : SymbolTable) (v : Nat) (f : Symbol → Symbol) (s : Nat) :
    (t.modifySymbol v f).scope s = t.scope s := rfl

@[simp] theorem size_modifySymbol (t : SymbolTable) (v : Nat) (f : Symbol → Symbol) :
    (t.modifySymbol v f).symbols.size = t.symbols.size := by simp [modifySymbol]

theorem symbol_push (t : SymbolTable) (x : Symbol) (v : Nat) :
    ({ t with symbols := t.symbols.push x } : SymbolTable).symbol v = if v = t.symbols.size then x else t.symbol v := by
  simp only [symbol, Array.getElem?_push]
  split <;> rfl

theorem scope_of_le (h : t.scopes.size ≤ s) : t.scope s = {} := by simp [scope, h]

/-- The names of a scope with their symbols, in the order in which they were entered. -/
def entries (t : SymbolTable) (s : Nat) : List (Option String × Nat) := (t.scope s).symbols.toList

def named? (t : SymbolTable) (s : Nat) (name : Option String) : Option Nat :=
  ((t.entries s).find? (·.1 == name)).map (·.2)

theorem lookupIn_eq (t : SymbolTable) (s : Nat) (x : String) (needed : Nat) :
    t.lookupIn s (some x) needed =
      (t.named? s (some x)).bind fun v => if (t.symbol v).isVisible needed then some v else none := by
  simp only [lookupIn, Option.isNone_some, Bool.false_eq_true, if_false, named?, entries, ← Array.find?_toList]
  cases (t.scope s).symbols.toList.find? (·.1 == some x) <;> rfl

theorem named?_eq_none (h : t.named? s name = none) : ∀ e ∈ t.entries s, e.1 ≠ name := by
  simpa [named?] using h

theorem mem_of_named? (h : t.named? s name = some v) : (name, v) ∈ t.entries s := by
  obtain ⟨e, he, rfl⟩ := Option.map_eq_some_iff.1 h
  have hname : e.1 = name := by simpa using List.find?_some he
  have := List.mem_of_find?_eq_some he
  rwa [← hname]

theorem mem_enterName {es : Array (Option String × Nat)} {e : Option String × Nat}
    (h : e ∈ (enterName es name v).toList) : e ∈ es.toList ∨ e = (name, v) := by
  unfold enterName at h
  split at h
  · simpa [or_comm] using Array.mem_or_eq_of_mem_setIfInBounds (Array.mem_toList_iff.1 h)
  · simpa using h

theorem find?_set {es : List (Option String × Nat)} (h : es.findIdx? (·.1 == name) = some i) (x : Option String) :
    (es.set i (name, v)).find? (·.1 == x) = if x = name then some (name, v) else es.find? (·.1 == x) := by
  induction es generalizing i with
  | nil => simp at h
  | cons e es ih =>
    rw [List.findIdx?_cons] at h
    by_cases he : e.1 = name
    · obtain rfl : 0 = i := by simpa [he] using h
      by_cases hx : x = name
      · simp [hx]
      · simp [he, hx, Ne.symm hx]
    · obtain ⟨j, hj, rfl⟩ : ∃ j, es.findIdx? (·.1 == name) = some j ∧ j + 1 = i := by simpa [he] using h
      by_cases hx : x = name
      · subst hx
        simpa [he] using ih hj
      · have := ih hj
        simp only [hx, if_false] at this
        simp only [List.set_cons_succ, List.find?_cons, this, hx, if_false]

/-- A name that is entered stands for its new symbol; the others stay as they are. -/
theorem find?_enterName (es : Array (Option String × Nat)) (name x : Option String) (v : Nat) :
    (enterName es name v).toList.find? (·.1 == x) =
      if x = name then some (name, v) else es.toList.find? (·.1 == x) := by
  unfold enterName
  split
  next i hi =>
    rw [Array.toList_setIfInBounds]
    exact find?_set ((List.findIdx?_toArray _ es.toList).symm.trans hi) x
  next hnone =>
    have hnone : ∀ e ∈ es.toList, e.1 ≠ name := by simpa [Array.findIdx?_eq_none_iff] using hnone
    rw [Array.toList_push, List.find?_append]
    by_cases hx : x = name
    · have hfind : es.toList.find? (·.1 == x) = none := by simpa [hx] using hnone
      rw [hfind]
      simp [hx]
    · rw [if_neg hx]
      simp [Ne.symm hx]

/-! ## Scopes -/

theorem runs_currentScope (h : t.current = some s) : Runs currentScope t i t' ↔ i = s ∧ t' = t := by
  simp [currentScope, h]

theorem of_runs_currentScope (h : Runs currentScope t s t') : t.current = some s ∧ t' = t := by
  cases hc : t.current with
  | none => simp [currentScope, hc] at h
  | some i =>
    obtain ⟨rfl, rfl⟩ := (runs_currentScope hc).1 h
    exact ⟨rfl, rfl⟩

theorem table_of_verdict {x : Symbol} {r : Verdict} (h : Runs (verdict x) t r t') : t' = t := by
  obtain ⟨s, t1, hs, hrest⟩ := runs_bind.1 h
  obtain ⟨-, rfl⟩ := of_runs_currentScope hs
  have hrest := runs_get_bind.1 hrest
  split at hrest
  · exact (runs_mk.1 hrest).2
  · exact (runs_pure.1 hrest).2

/-- The table with a new scope inside a scope. -/
def made (t : SymbolTable) (s : Nat) (isFunction : Bool) (name : Option String) : SymbolTable :=
  { t.modifyScope s fun scope => { scope with children := scope.children.push t.scopes.size } with
    scopes := (t.modifyScope s fun scope => { scope with children := scope.children.push t.scopes.size }).scopes.push
      { name, isFunction, above := s :: (t.scope s).above }
    current := some t.scopes.size
    depth := t.depth + 1
    functionDepth := if isFunction then t.functionDepth + 1 else t.functionDepth }

theorem runs_openScope {isFunction : Bool} (hr : t.replaying = false) (hc : t.current = some s) :
    Runs (openScope isFunction name) t () t' ↔ t' = t.made s isFunction name := by
  cases isFunction <;> simp [openScope, makeScope, currentScope, hr, hc, made, scope, modifyScope]

@[simp] theorem size_made (t : SymbolTable) (s : Nat) (isFunction : Bool) (name : Option String) :
    (t.made s isFunction name).scopes.size = t.scopes.size + 1 := by simp [made]

theorem scope_made (hs : s < t.scopes.size) (isFunction : Bool) (name : Option String) (i : Nat) :
    (t.made s isFunction name).scope i =
      if i = t.scopes.size then { name, isFunction, above := s :: (t.scope s).above }
      else if i = s then { t.scope i with children := (t.scope i).children.push t.scopes.size }
      else t.scope i := by
  have hmod := scope_modifyScope t s (fun scope => { scope with children := scope.children.push t.scopes.size }) i
  simp only [hs, and_true] at hmod
  rw [← hmod]
  simp only [made, scope, Array.getElem?_push, size_modifyScope]
  split <;> rfl

/-- The table with the open scope closed. -/
def shut (t : SymbolTable) (s : Nat) : SymbolTable :=
  { t with
    depth := t.depth - 1
    functionDepth := if (t.scope s).isFunction then t.functionDepth - 1 else t.functionDepth
    current := (t.scope s).above.head? }

theorem runs_closeScope (hc : t.current = some s) : Runs closeScope t () t' ↔ t' = t.shut s := by
  simp [closeScope, currentScope, hc]
  rfl

/-! ## Symbols -/

/-- A symbol was added and its name entered in a scope; a frame has got some more cells. -/
structure Enters (t : SymbolTable) (s frame : Nat) (size : Int) (symbol : Symbol) (t' : SymbolTable) : Prop where
  current : t'.current = t.current
  replaying : t'.replaying = t.replaying
  functionDepth : t'.functionDepth = t.functionDepth
  strings : t'.strings = t.strings
  symbols : t'.symbols.size = t.symbols.size + 1
  symbol_eq : ∀ v, t'.symbol v = if v = t.symbols.size then symbol else t.symbol v
  scopes : t'.scopes.size = t.scopes.size
  above : ∀ i, (t'.scope i).above = (t.scope i).above
  name : ∀ i, (t'.scope i).name = (t.scope i).name
  isFunction : ∀ i, (t'.scope i).isFunction = (t.scope i).isFunction
  children : ∀ i, (t'.scope i).children = (t.scope i).children
  cells : ∀ i, (t'.scope i).cells = (t.scope i).cells + if i = frame then size else 0
  entries_eq : ∀ i, (t'.scope i).symbols =
    if i = s then enterName (t.scope i).symbols symbol.name t.symbols.size else (t.scope i).symbols

section

variable {frame : Nat} {size : Int} {x : Symbol}

theorem Enters.mem_entries (h : Enters t s frame size x t') {e : Option String × Nat} (he : e ∈ t'.entries i) :
    e ∈ t.entries i ∨ i = s ∧ e = (x.name, t.symbols.size) := by
  rw [entries, h.entries_eq] at he
  split at he
  next hi => exact (mem_enterName he).imp_right fun heq => ⟨hi, heq⟩
  next => exact .inl he

theorem Enters.named? (h : Enters t s frame size x t') (i : Nat) (name : Option String) :
    t'.named? i name = if i = s ∧ name = x.name then some t.symbols.size else t.named? i name := by
  simp only [SymbolTable.named?, SymbolTable.entries, h.entries_eq]
  by_cases hi : i = s
  · rw [if_pos hi, find?_enterName]
    by_cases hname : name = x.name <;> simp [hi, hname]
  · simp [hi]

end

def added (t : SymbolTable) (x : Symbol) : SymbolTable := { t with symbols := t.symbols.push x }

def named (t : SymbolTable) (s : Nat) (name : Option String) (v : Nat) : SymbolTable :=
  t.modifyScope s fun scope => { scope with symbols := enterName scope.symbols name v }

def allotted (t : SymbolTable) (frame v : Nat) (size : Int) : SymbolTable :=
  (t.modifyScope frame fun scope => { scope with addressed := scope.addressed.push v }).modifyScope frame
    fun scope => { scope with cells := scope.cells + size }

theorem scope_allotted (t : SymbolTable) (frame v : Nat) (size : Int) (i : Nat) (h : frame < t.scopes.size) :
    (t.allotted frame v size).scope i =
      if i = frame then { t.scope i with addressed := (t.scope i).addressed.push v, cells := (t.scope i).cells + size }
      else t.scope i := by
  simp only [allotted, scope_modifyScope, size_modifyScope, h, and_true]
  split <;> rfl

theorem scope_named (t : SymbolTable) (s : Nat) (name : Option String) (v i : Nat) (h : s < t.scopes.size) :
    (t.named s name v).scope i =
      if i = s then { t.scope i with symbols := enterName (t.scope i).symbols name v } else t.scope i := by
  simp only [named, scope_modifyScope, h, and_true]

/-- A symbol is added, a frame may get cells, and then the name is entered. -/
theorem enters_named {t1 : SymbolTable} {frame : Nat} {size : Int} {x : Symbol} (hs : s < t.scopes.size)
    (h : t1 = { t.added x with scopes := t1.scopes }) (hsize : t1.scopes.size = t.scopes.size)
    (hscope : ∀ i, t1.scope i = { t.scope i with
      addressed := (t1.scope i).addressed, cells := (t.scope i).cells + if i = frame then size else 0 }) :
    Enters t s frame size x (t1.named s x.name t.symbols.size) := by
  have hnamed := fun i => scope_named t1 s x.name t.symbols.size i (hsize ▸ hs)
  constructor
  case symbols => rw [h]; simp [named, added, modifyScope]
  case symbol_eq => rw [h]; exact symbol_push t x
  case scopes => simpa [named] using hsize
  case above => intro i; rw [hnamed, hscope]; split <;> rfl
  case name => intro i; rw [hnamed, hscope]; split <;> rfl
  case isFunction => intro i; rw [hnamed, hscope]; split <;> rfl
  case children => intro i; rw [hnamed, hscope]; split <;> rfl
  case cells => intro i; rw [hnamed, hscope]; split <;> rfl
  case entries_eq => intro i; rw [hnamed, hscope]; split <;> rfl
  all_goals rw [h]; rfl

def withFunction (t : SymbolTable) (s : Nat) (f : FunctionSymbol) : SymbolTable :=
  (t.added (.function f)).named s f.name t.symbols.size

theorem enters_withFunction (hs : s < t.scopes.size) (f : FunctionSymbol) :
    Enters t s 0 0 (.function f) (t.withFunction s f) :=
  enters_named hs rfl rfl fun i => by simp; rfl

theorem runs_insertFunction_iff (hc : t.current = some s) : Runs (insertFunction f) t v t' ↔
    v = t.symbols.size ∧ t' = t.withFunction s { f with depth := t.functionDepth } := by
  simp [insertFunction, insert, addSymbol, currentScope, hc, withFunction, added, named]
  exact and_comm

theorem runs_insertFunction (hc : t.current = some s) (hs : s < t.scopes.size) (h : Runs (insertFunction f) t v t') :
    v = t.symbols.size ∧ Enters t s 0 0 (.function { f with depth := t.functionDepth }) t' := by
  obtain ⟨rfl, rfl⟩ := (runs_insertFunction_iff hc).1 h
  exact ⟨rfl, enters_withFunction hs _⟩

theorem symbol_added (t : SymbolTable) (x : Symbol) : (t.added x).symbol t.symbols.size = x := by
  simp [added, symbol]

theorem modifySymbol_added (t : SymbolTable) (x : Symbol) (f : Symbol → Symbol) :
    (t.added x).modifySymbol t.symbols.size f = t.added (f x) := by
  have : (t.symbols.push x).modify t.symbols.size f = t.symbols.push (f x) := by
    refine Array.ext_getElem? fun i => ?_
    simp only [Array.getElem?_modify, Array.getElem?_push]
    split <;> simp_all [eq_comm]
  simp only [modifySymbol, added, this]

theorem runs_assignAddress {frame : Nat} {o : ObjectSymbol} {u : Unit} :
    Runs (assignAddress frame t.symbols.size true) (t.added (.object o)) u t' ↔ ∃ size, o.type.size = .ok size ∧
      t' = (t.added (.object { o with address := some (t.scope frame).cells })).allotted frame t.symbols.size size := by
  simp only [assignAddress, runs_get_bind]
  rw [modifySymbol_added]
  simp only [if_true, runs_set_bind, runs_table_lift_bind, runs_modify, symbol_modifyScope, symbol_added]
  rfl

/-- The table with a variable in a scope. -/
def withObject (t : SymbolTable) (s : Nat) (o : ObjectSymbol) (size : Int) : SymbolTable :=
  ((t.added (.object { o with address := some (t.cellsOf s) })).allotted (t.frameOf s) t.symbols.size size).named s o.name
    t.symbols.size

theorem runs_insertObject_iff {o : ObjectSymbol} (hc : t.current = some s) : Runs (insertObject o) t v t' ↔
    v = t.symbols.size ∧ ∃ size, o.type.size = .ok size ∧ t' = t.withObject s o size := by
  simp [insertObject, insert, addSymbol, currentScope, hc]
  rw [← hc]
  change (∃ u t1, Runs (assignAddress (t.frameOf s) t.symbols.size true) (t.added (.object o)) u t1 ∧
    t' = t1.named s o.name t.symbols.size ∧ v = t.symbols.size) ↔ _
  simp only [runs_assignAddress]
  constructor
  · rintro ⟨_, _, ⟨size, hsize, rfl⟩, rfl, rfl⟩
    exact ⟨rfl, size, hsize, rfl⟩
  · rintro ⟨rfl, size, hsize, rfl⟩
    exact ⟨(), _, ⟨size, hsize, rfl⟩, rfl, rfl⟩

theorem runs_insertObject {o : ObjectSymbol} (hc : t.current = some s) (hs : s < t.scopes.size)
    (hf : t.frameOf s < t.scopes.size) (h : Runs (insertObject o) t v t') : v = t.symbols.size ∧
      ∃ size, o.type.size = .ok size ∧
        Enters t s (t.frameOf s) size (.object { o with address := some (t.cellsOf s) }) t' := by
  obtain ⟨rfl, size, hsize, rfl⟩ := (runs_insertObject_iff hc).1 h
  refine ⟨rfl, size, hsize, enters_named hs rfl (by simp [allotted, added]) fun i => ?_⟩
  rw [scope_allotted (t.added _) _ _ _ _ hf]
  split
  · rfl
  · simp only [Int.add_zero]
    rfl

/-! ## Insertion rules -/

/-- A variable does not fit beside anything. -/
theorem conflict_object (old : Symbol) (o : ObjectSymbol) :
    conflict old (.object o) ≠ .ok .accept ∧ conflict old (.object o) ≠ .ok .ignore := by
  cases old with
  | object o' => cases h : o'.byDeclarator <;> simp [conflict, h, pure, Except.pure]
  | function f => simp [conflict, pure, Except.pure]

/-- A function with a body does not fit beside another, nor beside a variable. -/
theorem conflict_function {old : Symbol} {f : FunctionSymbol} (hf : f.form.isDefinition = true)
    (hold : ∀ g, old = .function g → g.form.isDefinition = true) :
    conflict old (.function f) ≠ .ok .accept ∧ conflict old (.function f) ≠ .ok .ignore := by
  cases old with
  | object o => cases h : o.byDeclarator <;> simp [conflict, h, pure, Except.pure]
  | function g =>
    have hg := hold g rfl
    cases hform : g.form <;> simp_all [conflict, functionVerdict, pure, Except.pure, FunctionForm.isDefinition]

/-- A function without a body takes no place. -/
theorem functionVerdict_ne_accept {old new : FunctionSymbol} (h : new.form.isDefinition = false) :
    functionVerdict old new ≠ .ok .accept := by
  intro haccept
  unfold functionVerdict at haccept
  rw [h] at haccept
  cases hform : old.form with
  | declaration =>
    simp only [hform] at haccept
    obtain ⟨same, -, haccept⟩ := except_bind_eq_ok.1 haccept
    cases same <;> cases haccept
  | definition =>
    simp only [hform] at haccept
    obtain ⟨agrees, -, haccept⟩ := except_bind_eq_ok.1 haccept
    cases agrees with
    | false => cases haccept
    | true =>
      obtain ⟨same, -, haccept⟩ := except_bind_eq_ok.1 haccept
      cases same <;> cases haccept
  | main =>
    simp only [hform] at haccept
    cases haccept

/-- Only a function with a body takes a place, and only from a function without one. -/
theorem conflict_accept {new : Symbol} (h : conflict old new = .ok .accept) :
    ∃ f g, old = .function f ∧ f.form.isDefinition = false ∧ new = .function g ∧ g.form.isDefinition = true := by
  cases new with
  | object o => exact absurd h (conflict_object old o).1
  | function g =>
    cases old with
    | object o => cases ho : o.byDeclarator <;> simp [conflict, ho, pure, Except.pure] at h
    | function f =>
      cases hg : g.form.isDefinition with
      | false => exact absurd h (functionVerdict_ne_accept hg)
      | true =>
        refine ⟨f, g, rfl, ?_, rfl, hg⟩
        cases hf : f.form.isDefinition with
        | false => rfl
        | true => exact absurd h (conflict_function hg fun f' hf' => by cases hf'; exact hf).1

/-- Only a function without a body is left out. -/
theorem conflict_ignore {g : FunctionSymbol} (h : conflict old (.function g) = .ok .ignore) :
    g.form.isDefinition = false := by
  cases hg : g.form.isDefinition with
  | false => rfl
  | true =>
    cases old with
    | object o => cases ho : o.byDeclarator <;> simp [conflict, ho, pure, Except.pure] at h
    | function f =>
      simp only [conflict, functionVerdict, hg] at h
      cases hform : f.form with
      | declaration =>
        simp only [hform] at h
        obtain ⟨same, -, h⟩ := except_bind_eq_ok.1 h
        cases same <;> cases h
      | definition => simp only [hform] at h; cases h
      | main => simp only [hform] at h; cases h

/-! ## String literals -/

def stringSymbol (node : Nat) (type : CType) (address : Option Int) : Symbol :=
  .object ⟨none, node, (0, 0), false, type, address, 0⟩

def withText (strings : Array (List Nat × Nat)) (codes : List Nat) (v : Nat) : Array (List Nat × Nat) :=
  match strings.findIdx? fun e => e.1 == codes with
  | some i => strings.setIfInBounds i (codes, v)
  | none => strings.push (codes, v)

/-- The table with a string literal among the globals. -/
def withString (t : SymbolTable) (codes : List Nat) (node : Nat) (type : CType) (size : Int) : SymbolTable :=
  { (t.added (stringSymbol node type (some (t.scope 0).cells))).modifyScope 0
      fun scope => { scope with cells := scope.cells + size } with
    strings := withText t.strings codes t.symbols.size }

section

variable {raw : String} {codes : List Nat} {node : Nat} {type : CType}

/-- The text of a literal is kept unless it is known. -/
theorem runs_insertString (hfind : t.findString (raw.toList.map Char.toNat) = none) :
    Runs (insertString raw codes node type) t () t' ↔
      ∃ size, type.size = .ok size ∧ t' = t.withString codes node type size := by
  have haddress : ∀ t1, Runs (assignAddress 0 t.symbols.size false) (t.added (stringSymbol node type none)) () t1 ↔
      ∃ size, type.size = .ok size ∧ t1 = (t.added (stringSymbol node type (some (t.scope 0).cells))).modifyScope 0
        fun scope => { scope with cells := scope.cells + size } := by
    intro t1
    simp only [assignAddress, runs_get_bind]
    rw [modifySymbol_added]
    simp only [Bool.false_eq_true, if_false, runs_set_bind, runs_table_lift_bind, runs_modify, symbol_added]
    rfl
  have hadd : Runs (addSymbol (stringSymbol node type none)) t t.symbols.size (t.added (stringSymbol node type none)) :=
    runs_get_bind.2 (runs_set_bind.2 (runs_pure.2 ⟨rfl, rfl⟩))
  constructor
  · intro h
    have h := runs_get_bind.1 h
    simp only [hfind] at h
    obtain ⟨v, t1, hv, h⟩ := runs_bind.1 h
    obtain ⟨rfl, rfl⟩ : v = t.symbols.size ∧ t1 = t.added (stringSymbol node type none) := by
      have := hv.symm.trans hadd
      simpa using this
    obtain ⟨_, t2, ht2, h⟩ := runs_bind.1 h
    obtain ⟨size, hsize, rfl⟩ := (haddress t2).1 ht2
    exact ⟨size, hsize, runs_modify.1 h⟩
  · rintro ⟨size, hsize, rfl⟩
    refine runs_get_bind.2 ?_
    simp only [hfind]
    exact runs_bind.2 ⟨_, _, hadd, runs_bind.2 ⟨(), _, (haddress _).2 ⟨size, hsize, rfl⟩, runs_modify.2 rfl⟩⟩

theorem scope_withString {size : Int} (h : 0 < t.scopes.size) (i : Nat) : (t.withString codes node type size).scope i =
    if i = 0 then { t.scope i with cells := (t.scope i).cells + size } else t.scope i := by
  have hmodify := scope_modifyScope (t.added (stringSymbol node type (some (t.scope 0).cells))) 0
    (fun scope => { scope with cells := scope.cells + size }) i
  have hlt : 0 < (t.added (stringSymbol node type (some (t.scope 0).cells))).scopes.size := h
  simp only [hlt, and_true] at hmodify
  exact hmodify

end

end MiniC.SymbolTable
