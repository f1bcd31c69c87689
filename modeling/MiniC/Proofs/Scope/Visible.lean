import MiniC.Proofs.Scope.Lexical
import MiniC.Proofs.Scope.Replay

/-!
# Visible variables in a replay

In a replay the variables that a lookup finds are those whose declarators have been passed. `Seeing T s n env t` says
that the replay `t` of a table `T` shows at the scope `s` what `env` binds: each name goes with a number that is kept
of its variable, such as its address or the node that declares it.
-/

namespace MiniC.SymbolTable

variable {i k : Nat} {o : ObjectSymbol}

open Lexical (Env)

/-- A scope and the scopes around it, innermost first. -/
def around (T : SymbolTable) (s : Nat) : List Nat := s :: (T.scope s).above

/-- The variables of a scope that are visible, with what is kept of them. -/
def Bound (key : ObjectSymbol → Nat → Prop) (T t : SymbolTable) (s : Nat) (bs : List (String × Nat)) : Prop :=
  ∀ x i, bs.lookup x = some i ↔
    ∃ v o, T.named? s (some x) = some v ∧ t.symbol v = .object o ∧ 1 ≤ o.seen ∧ key o i

/-- The variables that are visible in scopes: those of the program, and those of a function and blocks in it. -/
inductive Shows (key : ObjectSymbol → Nat → Prop) (T t : SymbolTable) (globals : List (String × Nat)) :
    List Nat → List (List (String × Nat)) → Prop
  | root : Bound key T t 0 globals → Shows key T t globals [0] []
  | function {s bs} : Bound key T t s bs → (T.scope s).isFunction = true → s ≠ 0 → Bound key T t 0 globals →
      Shows key T t globals [s, 0] [bs]
  | block {s bs rest bss} : Bound key T t s bs → (T.scope s).isFunction = false → s ∉ rest → bss ≠ [] →
      Shows key T t globals rest bss → Shows key T t globals (s :: rest) (bs :: bss)

/-- The replay of a table shows at a scope what an environment binds. -/
structure Seeing (key : ObjectSymbol → Nat → Prop) (T : SymbolTable) (s n : Nat) (env : Env) (t : SymbolTable) :
    Prop where
  replays : Replays T s n t
  shows : Shows key T t env.globals (T.around s) env.locals

section

variable {key : ObjectSymbol → Nat → Prop} {T t t' : SymbolTable} {globals : List (String × Nat)} {chain : List Nat}
  {bss : List (List (String × Nat))} {s n v : Nat} {bs : List (String × Nat)} {x : String} {env : Env}

theorem Bound.congr (h : Bound key T t s bs) (heq : ∀ e ∈ T.entries s, t'.symbol e.2 = t.symbol e.2) :
    Bound key T t' s bs := by
  intro y i
  rw [h y i]
  refine exists_congr fun v => exists_congr fun o => and_congr_right fun hv => ?_
  rw [heq _ (mem_of_named? hv)]

theorem Shows.congr (h : Shows key T t globals chain bss)
    (heq : ∀ s ∈ chain, ∀ e ∈ T.entries s, t'.symbol e.2 = t.symbol e.2) : Shows key T t' globals chain bss := by
  induction h with
  | root hb => exact .root (hb.congr (heq 0 (by simp)))
  | function hb hf hne hb' => exact .function (hb.congr (heq _ (by simp))) hf hne (hb'.congr (heq 0 (by simp)))
  | block hb hf hne hbss _ ih =>
    exact .block (hb.congr (heq _ (by simp))) hf hne hbss (ih fun s hs => heq s (List.mem_cons_of_mem _ hs))

/-! ## Lookups -/

/-- A lookup in a scope finds a variable that is visible, or a function. -/
theorem lookupIn_cases (h : Replays T s n t) (hl : t.lookupIn i (some x) 1 = some v) :
    T.named? i (some x) = some v ∧ (t.symbol v).isVisible 1 = true := by
  rw [lookupIn_eq, h.named?] at hl
  obtain ⟨w, hw, hl⟩ := Option.bind_eq_some_iff.1 hl
  simp only [Option.ite_none_right_eq_some, Option.some.injEq] at hl
  obtain ⟨hv, rfl⟩ := hl
  exact ⟨hw, hv⟩

/-- A symbol that was declared in the open scope is found there. -/
theorem lookup_declared (h : Replays T s n t) (hv : T.named? s (some x) = some v) : t.lookup (some x) 0 = some v := by
  have hvisible : (t.symbol v).isVisible 0 = true := by cases t.symbol v <;> simp [Symbol.isVisible]
  rw [SymbolTable.lookup, h.chain, List.findSome?_cons, lookupIn_eq, h.named?, hv]
  simp [hvisible]

theorem Bound.lookup_none (hb : Bound key T t s bs) (h : t.lookupIn s (some x) 1 = none)
    (he : t.named? s (some x) = T.named? s (some x)) : bs.lookup x = none := by
  cases hl : bs.lookup x with
  | none => rfl
  | some i =>
    obtain ⟨v, o, hv, ho, hseen, -⟩ := (hb x i).1 hl
    rw [lookupIn_eq, he, hv] at h
    simp [ho, Symbol.isVisible, hseen] at h

theorem Bound.lookup_some (h : Replays T s n t) (hb : Bound key T t i bs) (hl : t.lookupIn i (some x) 1 = some v)
    (ho : t.symbol v = .object o) (hkey : key o k) : T.named? i (some x) = some v ∧ bs.lookup x = some k := by
  obtain ⟨hv, hvisible⟩ := lookupIn_cases h hl
  rw [ho] at hvisible
  exact ⟨hv, (hb x k).2 ⟨v, o, hv, ho, by simpa [Symbol.isVisible] using hvisible, hkey⟩⟩

/-- The number of functions between the first of some scopes and another of them. -/
def levelTo (T : SymbolTable) (i : Nat) : Int → List Nat → Option Int
  | _, [] => none
  | level, s :: rest => if s = i then some level else levelTo T i (if (T.scope s).isFunction then level + 1 else level) rest

/-- A symbol is found in its own scope only. -/
theorem levelOf_go_eq (hT : Built T) (hv : T.named? i (some x) = some v) (level : Int) :
    levelOf.go T v level chain = levelTo T i level chain := by
  have hmem := mem_of_named? hv
  have hlisted : ∀ s, ((T.scope s).symbols.any fun e => e.2 == v) = decide (s = i) := by
    intro s
    by_cases hs : s = i
    · subst hs
      simp only [decide_true, Array.any_eq_true']
      exact ⟨(some x, v), by simpa [entries] using hmem, by simp⟩
    · simp only [hs, decide_false]
      rw [← Bool.not_eq_true, Array.any_eq_true']
      rintro ⟨e, he, hev⟩
      exact hs (hT.owner s i e (some x, v) (by simpa [entries] using he) hmem (by simpa using hev))
  induction chain generalizing level with
  | nil => rfl
  | cons s rest ih => simp only [levelOf.go, levelTo, hlisted, decide_eq_true_eq, ih]

theorem levelOf_eq (h : Replays T s n t) (v : Nat) : t.levelOf v = levelOf.go T v 0 (around T s) := by
  have hgo : ∀ (chain : List Nat) (level : Int), levelOf.go t v level chain = levelOf.go T v level chain := by
    intro chain
    induction chain with
    | nil => intro level; rfl
    | cons i rest ih =>
      intro level
      simp only [levelOf.go, h.isFunction, ih, congrArg Scope.symbols (h.scope_eq i)]
  rw [levelOf, h.chain, hgo]
  rfl

/-- A visible variable is the one that the environment gives for its name, and its level is the number of frames
between. -/
theorem Shows.find (h : Replays T s n t) (hs : Shows key T t globals chain bss)
    (hl : chain.findSome? (fun i => t.lookupIn i (some x) 1) = some v) (ho : t.symbol v = .object o) (hkey : key o k) :
    ∃ level, Env.find? ⟨bss, globals⟩ x = some (k, level) ∧
      ∃ i ∈ chain, T.named? i (some x) = some v ∧ levelTo T i 0 chain = some level := by
  induction hs with
  | root hb =>
    have hl : t.lookupIn 0 (some x) 1 = some v := by simpa using hl
    obtain ⟨hv, hk⟩ := hb.lookup_some h hl ho hkey
    exact ⟨0, by simp [Env.find?, hk], 0, by simp, hv, by simp [levelTo]⟩
  | @function s' bs hb hf hne hb' =>
    cases hin : t.lookupIn s' (some x) 1 with
    | some v' =>
      obtain rfl : v' = v := by simpa [hin] using hl
      obtain ⟨hv, hk⟩ := hb.lookup_some h hin ho hkey
      exact ⟨0, by simp [Env.find?, hk], s', by simp, hv, by simp [levelTo]⟩
    | none =>
      have hl : t.lookupIn 0 (some x) 1 = some v := by simpa [hin] using hl
      obtain ⟨hv, hk⟩ := hb'.lookup_some h hl ho hkey
      have hnone := hb.lookup_none hin (h.named? _ _)
      exact ⟨1, by simp [Env.find?, hnone, hk], 0, by simp, hv, by simp [levelTo, hne, hf]⟩
  | @block s' bs rest bss hb hf hrest hbss _ ih =>
    cases hin : t.lookupIn s' (some x) 1 with
    | some v' =>
      obtain rfl : v' = v := by simpa [hin] using hl
      obtain ⟨hv, hk⟩ := hb.lookup_some h hin ho hkey
      exact ⟨0, by simp [Env.find?, hk], s', by simp, hv, by simp [levelTo]⟩
    | none =>
      have hl : rest.findSome? (fun i => t.lookupIn i (some x) 1) = some v := by simpa [hin] using hl
      obtain ⟨level, hfind, i, hi, hv, hlevel⟩ := ih hl
      have hnone := hb.lookup_none hin (h.named? _ _)
      have hne : s' ≠ i := fun heq => hrest (heq ▸ hi)
      refine ⟨level, ?_, i, by simp [hi], hv, ?_⟩
      · simpa [Env.find?, hnone, hbss] using hfind
      · simpa [levelTo, hne, hf] using hlevel

/-! ## Declarations -/

theorem Bound.declare (hT : Built T) (hb : Bound key T t s bs) (hv : T.named? s (some x) = some v)
    (ho : t'.symbol v = .object o) (hseen : 1 ≤ o.seen) (hkey : ∀ i, key o i ↔ i = k)
    (hrest : ∀ u, u ≠ v → t'.symbol u = t.symbol u) : Bound key T t' s ((x, k) :: bs) := by
  intro y i
  by_cases hy : y = x
  · subst hy
    simp only [List.lookup_cons, beq_self_eq_true, Option.some.injEq, hv]
    refine ⟨fun h => ⟨v, o, rfl, ho, hseen, (hkey i).2 h.symm⟩, ?_⟩
    rintro ⟨_, o', rfl, ho', -, hkey'⟩
    cases ho.symm.trans ho'
    exact ((hkey i).1 hkey').symm
  · have hbeq : (y == x) = false := by simpa using hy
    simp only [List.lookup_cons, hbeq]
    rw [hb y i]
    refine exists_congr fun u => exists_congr fun o' => and_congr_right fun hu => ?_
    have hne : u ≠ v := fun heq => by
      have h1 := hT.name_eq s _ (mem_of_named? hu)
      have h2 := hT.name_eq s _ (mem_of_named? hv)
      simp only [heq] at h1 h2
      exact hy (Option.some.inj (h1.symm.trans h2))
    rw [hrest u hne]

theorem Replays.object_eq (h : Replays T s n t) (ho : T.symbol v = .object o) :
    ∃ stage, t.symbol v = .object { o with seen := stage } := by
  have hsymbol := h.symbol_eq v
  rw [ho] at hsymbol
  cases hv : t.symbol v with
  | function f => rw [hv] at hsymbol; cases hsymbol
  | object o' =>
    rw [hv] at hsymbol
    cases hsymbol
    exact ⟨o'.seen, rfl⟩

/-- The variable is declared from here on. -/
theorem Seeing.declare {stage : Nat} (hT : Built T) (h : Seeing key T s n env t) (hv : T.named? s (some x) = some v)
    (ho : T.symbol v = .object o) (hstage : 1 ≤ stage) (hkey : ∀ stage i, key { o with seen := stage } i ↔ i = k) :
    Seeing key T s n (env.declare x k) (t.modifySymbol v (Symbol.setSeen stage)) := by
  obtain ⟨before, ho⟩ := h.replays.object_eq ho
  have hmem := mem_of_named? hv
  have hlt : v < t.symbols.size := h.replays.symbols_size ▸ hT.entry_lt _ _ hmem
  have hsymbol := symbol_setSeen hlt ho stage
  have hself : (t.modifySymbol v (Symbol.setSeen stage)).symbol v = .object { o with seen := stage } := by
    rw [hsymbol, if_pos rfl]
  have hother : ∀ u, u ≠ v → (t.modifySymbol v (Symbol.setSeen stage)).symbol u = t.symbol u :=
    fun u hu => by rw [hsymbol, if_neg hu]
  have hscope : ∀ i, i ≠ s → ∀ e ∈ T.entries i, (t.modifySymbol v (Symbol.setSeen stage)).symbol e.2 = t.symbol e.2 :=
    fun i hi e he => hother _ fun heq => hi (hT.owner i s e _ he hmem heq)
  refine ⟨h.replays.setSeen hlt ho stage, ?_⟩
  have hbound : ∀ bs, Bound key T t s bs →
      Bound key T (t.modifySymbol v (Symbol.setSeen stage)) s ((x, k) :: bs) :=
    fun bs hb => hb.declare hT hv hself hstage (hkey stage) hother
  have hshows := h.shows
  obtain ⟨bss, globals⟩ := env
  simp only at hshows
  generalize hchain : T.around s = chain at hshows ⊢
  cases hshows with
  | root hb =>
    obtain ⟨rfl, -⟩ := List.cons.inj hchain
    exact .root (hbound _ hb)
  | function hb hf hne hb' =>
    obtain ⟨rfl, -⟩ := List.cons.inj hchain
    exact .function (hbound _ hb) hf hne (hb'.congr (hscope 0 hne.symm))
  | block hb hf hrest hbss hs =>
    obtain ⟨rfl, -⟩ := List.cons.inj hchain
    exact .block (hbound _ hb) hf hrest hbss (hs.congr fun i hi => hscope i fun heq => hrest (heq ▸ hi))

/-! ## Scopes -/

/-- The scopes around a scope have smaller numbers. -/
theorem le_of_mem_around (hT : Built T) (hi : i ∈ T.around s) : i ≤ s := by
  obtain rfl | hi := List.mem_cons.1 hi
  · exact Nat.le_refl _
  · exact Nat.le_of_lt (hT.above_lt s i hi)

theorem around_eq (habove : (T.scope n).above = i :: (T.scope i).above) : T.around n = n :: T.around i := by
  rw [around, habove]
  rfl

section

variable (hsymbol : ∀ v, t'.symbol v = if v ∈ (T.entries s).map (·.2) then (t.symbol v).unseen else t.symbol v)

include hsymbol

theorem bound_opened : Bound key T t' s [] := by
  intro x i
  simp only [List.lookup_nil, reduceCtorEq, false_iff]
  rintro ⟨v, o, hv, ho, hseen, -⟩
  have hmem : v ∈ (T.entries s).map (·.2) := List.mem_map.2 ⟨_, mem_of_named? hv, rfl⟩
  rw [hsymbol, if_pos hmem] at ho
  cases hold : t.symbol v with
  | function f => rw [hold] at ho; cases ho
  | object o' =>
    rw [hold] at ho
    cases ho
    simp at hseen

theorem symbol_opened (hT : Built T) (hi : i ≠ s) {e : Option String × Nat} (he : e ∈ T.entries i) :
    t'.symbol e.2 = t.symbol e.2 := by
  rw [hsymbol, if_neg]
  intro hmem
  obtain ⟨e', he', heq⟩ := List.mem_map.1 hmem
  exact hi (hT.owner i s e e' he he' heq.symm)

end

/-- A scope is entered: a block inside a function, or a function at the top. -/
theorem Seeing.opened {isFunction : Bool} {name : Option String} (hT : Built T) (h : Seeing key T s n env t)
    (hn : n < T.scopes.size) (habove : (T.scope n).above = s :: (T.scope s).above)
    (hfun : (T.scope n).isFunction = isFunction) (hplace : isFunction = env.locals.isEmpty)
    (hr : Runs (openScope isFunction name) t () t') : Seeing key T n (n + 1) env.opened t' := by
  obtain ⟨t1, hopen, hreplays, hsymbol, -⟩ := h.replays.opened hT.toOrdered hn (by rw [habove]; rfl) isFunction name
  obtain rfl : t1 = t' := (Prod.mk.inj (hopen.symm.trans hr)).2
  have hnot : n ∉ T.around s := fun hmem => by
    have := le_of_mem_around hT hmem
    have := h.replays.scope_lt
    omega
  refine ⟨hreplays, ?_⟩
  have hshows := h.shows.congr fun i hi e he => symbol_opened hsymbol hT (fun heq => hnot (heq ▸ hi)) he
  rw [around_eq habove]
  obtain ⟨bss, globals⟩ := env
  cases bss with
  | cons bs bss => exact .block (bound_opened hsymbol) (hfun.trans hplace) hnot (List.cons_ne_nil _ _) hshows
  | nil =>
    generalize T.around s = chain at hnot hshows ⊢
    cases hshows with
    | root hb => exact .function (bound_opened hsymbol) (hfun.trans hplace) (fun heq => hnot (by simp [heq])) hb

/-- At the start of a replay nothing is visible. -/
theorem seeing_start (hT : Built T) : Seeing key T 0 1 {} T.reset.startReplay := by
  refine ⟨replays_start hT.toOrdered, ?_⟩
  rw [around, hT.root_above]
  refine .root fun x i => ?_
  simp only [List.lookup_nil, reduceCtorEq, false_iff]
  rintro ⟨v, o, -, ho, hseen, -⟩
  have := hT.unseen v o ho
  omega

theorem Seeing.closed {inner : Env} (h : Seeing key T s n inner t) (hlt : i < n)
    (habove : (T.scope s).above = i :: (T.scope i).above) (hglobals : inner.globals = env.globals)
    (hlocals : inner.locals.tail = env.locals) (hr : Runs closeScope t () t') : Seeing key T i n env t' := by
  obtain ⟨t1, hclose, hreplays, hsymbol⟩ := h.replays.closed (by rw [habove]; rfl) hlt
  obtain rfl : t1 = t' := (Prod.mk.inj (hclose.symm.trans hr)).2
  refine ⟨hreplays, ?_⟩
  have hshows := h.shows
  rw [around_eq habove, hglobals] at hshows
  rw [← hlocals]
  generalize hchain : s :: T.around i = chain at hshows
  generalize inner.locals = bss at hshows ⊢
  cases hshows with
  | root => simp [around] at hchain
  | function _ _ _ hb =>
    obtain ⟨-, hchain⟩ := List.cons.inj hchain
    rw [hchain]
    exact .root (hb.congr fun _ _ => hsymbol _)
  | block _ _ _ _ hs =>
    obtain ⟨-, rfl⟩ := List.cons.inj hchain
    exact hs.congr fun _ _ _ _ => hsymbol _

end

end MiniC.SymbolTable
