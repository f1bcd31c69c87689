import MiniC.Proofs.Scope.Growth

/-!
# Replaying a symbol table

A table that was filled is gone through again in the same order. `Replays T s n t` says that `t` is the table `T` in
a replay, where the scope `s` is open and `n` scopes have been opened: only the counters of scopes and the stages of
declaration of variables differ. The scope that is opened next is the one with the number `n`.
-/

namespace MiniC

/-- The symbol before its declaration. -/
def Symbol.unseen : Symbol → Symbol
  | .object o => .object { o with seen := 0 }
  | .function f => .function f

namespace SymbolTable

variable {t t' T : SymbolTable} {s n v : Nat}

/-! ## Forgetting what was declared -/

theorem unseen_default (h : t.symbols.size ≤ v) : (t.symbol v).unseen = t.symbol v := by
  simp [symbol, Array.getElem?_eq_none h]
  rfl

theorem symbol_modify_unseen (t : SymbolTable) (v i : Nat) :
    (t.modifySymbol v Symbol.unseen).symbol i = if i = v then (t.symbol i).unseen else t.symbol i := by
  rw [symbol_modifySymbol]
  by_cases hi : i = v
  · by_cases hv : v < t.symbols.size
    · simp [hi, hv]
    · simp [hi, hv, unseen_default (Nat.le_of_not_lt hv)]
  · simp [hi]

@[simp] theorem unseen_unseen (x : Symbol) : x.unseen.unseen = x.unseen := by cases x <;> rfl

theorem forgetSeen_eq (t : SymbolTable) (s : Nat) :
    t.forgetSeen s = (t.entries s).foldl (fun t e => t.modifySymbol e.2 Symbol.unseen) t := by
  rw [forgetSeen, ← Array.foldl_toList]
  congr 1
  funext t e
  obtain ⟨_, v⟩ := e
  simp only
  congr 1
  funext x
  cases x <;> rfl

theorem foldl_unseen (es : List (Option String × Nat)) (t : SymbolTable) :
    (∀ v, (es.foldl (fun t e => t.modifySymbol e.2 Symbol.unseen) t).symbol v =
      if v ∈ es.map (·.2) then (t.symbol v).unseen else t.symbol v) ∧
    (es.foldl (fun t e => t.modifySymbol e.2 Symbol.unseen) t).symbols.size = t.symbols.size ∧
    es.foldl (fun t e => t.modifySymbol e.2 Symbol.unseen) t =
      { t with symbols := (es.foldl (fun t e => t.modifySymbol e.2 Symbol.unseen) t).symbols } := by
  induction es generalizing t with
  | nil => simp
  | cons e es ih =>
    obtain ⟨hsymbol, hsize, hrest⟩ := ih (t.modifySymbol e.2 Symbol.unseen)
    refine ⟨fun v => ?_, hsize.trans (size_modifySymbol ..), hrest⟩
    rw [List.foldl_cons, hsymbol, symbol_modify_unseen]
    simp only [List.map_cons, List.mem_cons]
    grind [unseen_unseen]

theorem symbol_forgetSeen (t : SymbolTable) (s v : Nat) :
    (t.forgetSeen s).symbol v = if v ∈ (t.entries s).map (·.2) then (t.symbol v).unseen else t.symbol v := by
  rw [forgetSeen_eq]
  exact (foldl_unseen _ t).1 v

theorem forgetSeen_symbols (t : SymbolTable) (s : Nat) : t.forgetSeen s = { t with symbols := (t.forgetSeen s).symbols } := by
  rw [forgetSeen_eq]
  exact (foldl_unseen _ t).2.2

theorem size_forgetSeen (t : SymbolTable) (s : Nat) : (t.forgetSeen s).symbols.size = t.symbols.size := by
  rw [forgetSeen_eq]
  exact (foldl_unseen _ t).2.1

/-! ## Replays -/

structure Replays (T : SymbolTable) (s n : Nat) (t : SymbolTable) : Prop where
  replaying : t.replaying = true
  current : t.current = some s
  size : t.scopes.size = T.scopes.size
  scope_eq : ∀ i, t.scope i = { T.scope i with next := (t.scope i).next }
  next_eq : ∀ i < n, (t.scope i).next = (T.childrenBelow i n).length
  symbols_size : t.symbols.size = T.symbols.size
  symbol_eq : ∀ v, (t.symbol v).unseen = T.symbol v
  strings_eq : t.strings = T.strings
  scope_lt : s < n

theorem Replays.entries (h : Replays T s n t) (i : Nat) : t.entries i = T.entries i := by
  simp only [SymbolTable.entries, congrArg Scope.symbols (h.scope_eq i)]

theorem Replays.named? (h : Replays T s n t) (i : Nat) (name : Option String) : t.named? i name = T.named? i name := by
  simp only [SymbolTable.named?, h.entries]

theorem Replays.above (h : Replays T s n t) (i : Nat) : (t.scope i).above = (T.scope i).above := by rw [h.scope_eq]

theorem Replays.isFunction (h : Replays T s n t) (i : Nat) : (t.scope i).isFunction = (T.scope i).isFunction := by
  rw [h.scope_eq]

theorem Replays.children (h : Replays T s n t) (i : Nat) : (t.scope i).children = (T.scope i).children := by
  rw [h.scope_eq]

theorem Replays.chain (h : Replays T s n t) : t.chain = s :: (T.scope s).above := by
  simp only [SymbolTable.chain, h.current, h.above]

theorem Replays.address (h : Replays T s n t) (v : Nat) : (t.symbol v).address = (T.symbol v).address := by
  rw [← h.symbol_eq v]
  cases t.symbol v <;> rfl

theorem Replays.function_eq (h : Replays T s n t) {g : FunctionSymbol} (hg : T.symbol v = .function g) :
    t.symbol v = .function g := by
  have := h.symbol_eq v
  rw [hg] at this
  cases hv : t.symbol v with
  | object o => rw [hv] at this; cases this
  | function f => rw [hv] at this; exact this

theorem childrenBelow_split (hn : n < T.scopes.size) (hhead : (T.scope n).above.head? = some s) :
    (T.childrenBelow s T.scopes.size)[(T.childrenBelow s n).length]? = some n := by
  obtain ⟨k, hk⟩ : ∃ k, T.scopes.size = n + 1 + k := ⟨T.scopes.size - (n + 1), by omega⟩
  simp only [childrenBelow, hk, List.range_add, List.range_succ, List.filter_append]
  simp [hhead]

theorem childrenBelow_succ (i : Nat) (hhead : (T.scope n).above.head? = some s) :
    T.childrenBelow i (n + 1) = T.childrenBelow i n ++ if i = s then [n] else [] := by
  simp only [childrenBelow, List.range_succ, List.filter_append, List.filter_cons, List.filter_nil, hhead]
  congr 1
  by_cases hi : i = s
  · simp [hi]
  · simp [hi, Ne.symm hi]

/-- The table when a scope is opened inside another, but for what its variables are. -/
def advanced (t : SymbolTable) (s child : Nat) (isFunction : Bool) : SymbolTable :=
  let t := { t with
    depth := t.depth + 1
    functionDepth := if isFunction then t.functionDepth + 1 else t.functionDepth }
  (t.modifyScope s fun scope => { scope with next := scope.next + 1 }).modifyScope child
    fun scope => { scope with next := 0 }

theorem outcome_openScope {child : Nat} (hr : t.replaying = true) (hc : t.current = some s)
    (hchild : (t.scope s).children[(t.scope s).next]? = some child) (isFunction : Bool) (name : Option String) :
    ∃ notices, outcome (openScope isFunction name) t =
      (.ok (), { (t.advanced s child isFunction).forgetSeen child with current := some child, notices }) ∧
        ((t.scope child).name = name → notices = t.notices) := by
  refine ⟨if (t.scope child).name == name then t.notices else t.notices.push
    ("Warning: Symbol table open scope traverse: expected " ++ (t.scope child).name.getD "None" ++ ", got "
      ++ name.getD "None"), ?_, fun hname => by simp [hname]⟩
  change Runs _ _ _ _
  have hchild' := hchild
  simp only [scope] at hchild'
  cases isFunction <;> simp [openScope, replayScope, currentScope, hr, hc, scope, hchild', advanced]

theorem scope_advanced (hs : s < t.scopes.size) {child : Nat} (hchild : child < t.scopes.size) (isFunction : Bool)
    (i : Nat) : (t.advanced s child isFunction).scope i = { t.scope i with
      next := if i = child then 0 else if i = s then (t.scope i).next + 1 else (t.scope i).next } := by
  simp only [advanced, scope_modifyScope, size_modifyScope, hs, hchild, and_true]
  split
  · split <;> rfl
  · split <;> rfl

/-- The next scope is opened; its variables are not declared yet. Nothing is said about it if it has the name. -/
theorem Replays.opened (h : Replays T s n t) (ho : Ordered T) (hn : n < T.scopes.size)
    (hhead : (T.scope n).above.head? = some s) (isFunction : Bool) (name : Option String) :
    ∃ t', outcome (openScope isFunction name) t = (.ok (), t') ∧ Replays T n (n + 1) t' ∧
      (∀ v, t'.symbol v = if v ∈ (T.entries n).map (·.2) then (t.symbol v).unseen else t.symbol v) ∧
      ((T.scope n).name = name → t'.notices = t.notices) := by
  have hchild : (t.scope s).children[(t.scope s).next]? = some n := by
    rw [h.children, h.next_eq s h.scope_lt, ← Array.getElem?_toList, ho.children_eq]
    exact childrenBelow_split hn hhead
  have hs : s < t.scopes.size := by have := h.scope_lt; rw [h.size]; omega
  have hadvanced := scope_advanced hs (h.size ▸ hn) isFunction
  obtain ⟨notices, hopen, hnotices⟩ := outcome_openScope h.replaying h.current hchild isFunction name
  have hforget := forgetSeen_symbols (t.advanced s n isFunction) n
  have hscope : ∀ i, ((t.advanced s n isFunction).forgetSeen n).scope i = (t.advanced s n isFunction).scope i :=
    fun i => congrArg (·.scope i) hforget
  have hsize : ((t.advanced s n isFunction).forgetSeen n).scopes.size = t.scopes.size := by
    rw [hforget]
    simp [advanced]
  have hsymbols : ((t.advanced s n isFunction).forgetSeen n).symbols.size = t.symbols.size := size_forgetSeen _ n
  have hreplaying : ((t.advanced s n isFunction).forgetSeen n).replaying = t.replaying :=
    (congrArg SymbolTable.replaying hforget :)
  have hstrings : ((t.advanced s n isFunction).forgetSeen n).strings = t.strings :=
    (congrArg SymbolTable.strings hforget :)
  have hsymbol : ∀ v, ((t.advanced s n isFunction).forgetSeen n).symbol v =
      if v ∈ (T.entries n).map (·.2) then (t.symbol v).unseen else t.symbol v := fun v => by
    have hentries : (t.advanced s n isFunction).entries n = T.entries n := by
      rw [← h.entries, SymbolTable.entries, hadvanced]
      rfl
    rw [symbol_forgetSeen, hentries]
    rfl
  generalize (t.advanced s n isFunction).forgetSeen n = u at *
  refine ⟨_, hopen, ?_, hsymbol, fun hname => hnotices (by rw [h.scope_eq]; exact hname)⟩
  constructor
  case replaying => exact hreplaying.trans h.replaying
  case current => rfl
  case size => exact hsize.trans h.size
  case scope_eq =>
    intro i
    change u.scope i = { T.scope i with next := (u.scope i).next }
    rw [hscope, hadvanced, h.scope_eq i]
  case next_eq =>
    intro i hi
    change (u.scope i).next = _
    rw [hscope, hadvanced, childrenBelow_succ i hhead]
    by_cases hin : i = n
    · subst hin
      simp [childrenBelow_of_le ho.toRooted (Nat.le_succ i), Nat.ne_of_gt h.scope_lt]
    · by_cases his : i = s
      · simp [his, Nat.ne_of_lt h.scope_lt, h.next_eq s h.scope_lt]
      · simp [hin, his, h.next_eq i (by omega)]
  case symbols_size => exact hsymbols.trans h.symbols_size
  case symbol_eq =>
    intro v
    change (u.symbol v).unseen = _
    rw [hsymbol]
    split
    · rw [unseen_unseen, h.symbol_eq]
    · exact h.symbol_eq v
  case strings_eq => exact hstrings.trans h.strings_eq
  case scope_lt => exact Nat.lt_succ_self n

theorem Replays.closed {a : Nat} (h : Replays T s n t) (hhead : (T.scope s).above.head? = some a) (ha : a < n) :
    ∃ t', outcome closeScope t = (.ok (), t') ∧ Replays T a n t' ∧ ∀ v, t'.symbol v = t.symbol v := by
  refine ⟨t.shut s, (runs_closeScope h.current).2 rfl, ?_, fun _ => rfl⟩
  exact ⟨h.replaying, by simp [shut, h.above, hhead], h.size, h.scope_eq, h.next_eq,
    h.symbols_size, h.symbol_eq, h.strings_eq, ha⟩

theorem scope_reset (t : SymbolTable) (i : Nat) :
    t.reset.scope i = { t.scope i with next := if i = 0 then 0 else (t.scope i).next } := by
  have h := scope_modifyScope t 0 (fun scope => { scope with next := 0 }) i
  change (t.modifyScope 0 fun scope => { scope with next := 0 }).scope i = _
  rw [h]
  by_cases hi : i = 0
  · by_cases hsize : 0 < t.scopes.size
    · simp [hi, hsize]
    · simp [hi, hsize, scope_of_le (Nat.le_of_not_lt hsize)]
  · simp [hi]

/-- Back at the root, the replay starts anew. -/
theorem Replays.reset (h : Replays T s n t) (hr : Rooted T) : Replays T 0 1 t.reset := by
  refine ⟨h.replaying, rfl, by simpa [SymbolTable.reset] using h.size, fun i => ?_, fun i hi => ?_, h.symbols_size,
    h.symbol_eq, h.strings_eq, Nat.one_pos⟩
  · rw [scope_reset, h.scope_eq i]
  · obtain rfl : i = 0 := by omega
    simp [scope_reset, childrenBelow_of_le hr (Nat.le_refl 1)]

theorem replays_startReplay (ho : Ordered T) : Replays T 0 1 T.startReplay := by
  refine ⟨rfl, rfl, by simp [startReplay, SymbolTable.reset], fun i => ?_, fun i hi => ?_, rfl, fun v => ?_, rfl,
    Nat.one_pos⟩
  · rw [startReplay, scope_reset]
    rfl
  · obtain rfl : i = 0 := by omega
    simp [startReplay, scope_reset, childrenBelow_of_le ho.toRooted (Nat.le_refl 1)]
  · change (T.symbol v).unseen = T.symbol v
    cases hv : T.symbol v with
    | function f => rfl
    | object o =>
      have := ho.unseen v o hv
      cases o
      simp_all [Symbol.unseen]

theorem replays_start (ho : Ordered T) : Replays T 0 1 T.reset.startReplay :=
  (replays_startReplay ho).reset ho.toRooted

/-! ## Stages of declaration -/

theorem symbol_setSeen {o : ObjectSymbol} (hv : v < t.symbols.size) (ho : t.symbol v = .object o) (stage i : Nat) :
    (t.modifySymbol v (Symbol.setSeen stage)).symbol i =
      if i = v then .object { o with seen := stage } else t.symbol i := by
  rw [symbol_modifySymbol]
  by_cases hi : i = v
  · subst hi
    simp [hv, ho, Symbol.setSeen]
  · simp [hi]

theorem setSeen_setSeen (t : SymbolTable) (v i j : Nat) :
    (t.modifySymbol v (Symbol.setSeen i)).modifySymbol v (Symbol.setSeen j) = t.modifySymbol v (Symbol.setSeen j) := by
  have : (t.symbols.modify v (Symbol.setSeen i)).modify v (Symbol.setSeen j) = t.symbols.modify v (Symbol.setSeen j) := by
    refine Array.ext_getElem? fun k => ?_
    simp only [Array.getElem?_modify]
    split
    · cases t.symbols[k]? with
      | none => rfl
      | some x => cases x <;> rfl
    · rfl
  simp only [modifySymbol, this]

theorem Replays.setSeen {o : ObjectSymbol} (h : Replays T s n t) (hv : v < t.symbols.size) (ho : t.symbol v = .object o)
    (stage : Nat) : Replays T s n (t.modifySymbol v (Symbol.setSeen stage)) := by
  refine ⟨h.replaying, h.current, h.size, h.scope_eq, h.next_eq, (size_modifySymbol ..).trans h.symbols_size,
    fun i => ?_, h.strings_eq, h.scope_lt⟩
  rw [← h.symbol_eq i, symbol_setSeen hv ho]
  split
  next hi => rw [hi, ho]; rfl
  next => rfl

end SymbolTable

end MiniC
