import MiniC.Proofs.Scope.Origins
import MiniC.Proofs.Scope.Resolving

/-!
# Programs with functions for input and output

Where a program asks for the functions for input and output, they are entered into the table in the middle of the
second pass. They take the places of other functions, but of no variables, if none has one of their names; so what is
known of variables stays true. From this the second pass is followed over whole programs.
-/

namespace MiniC

def Symbol.isObject : Symbol → Bool
  | .object _ => true
  | .function _ => false

namespace SymbolTable

variable {T t : SymbolTable} {f : FunctionSymbol} {s n : Nat} {x : String}

/-- A replay goes on when a function is entered in both tables. -/
theorem Replays.withFunction (h : Replays T s n t) (hi : s < T.scopes.size) (f : FunctionSymbol) :
    Replays (T.withFunction s f) s n (t.withFunction s f) := by
  have hscope : ∀ i, (T.withFunction s f).scope i = if i = s then
      { T.scope i with symbols := enterName (T.scope i).symbols f.name T.symbols.size } else T.scope i := fun i =>
    scope_named _ s f.name T.symbols.size i hi
  have hscope' : ∀ i, (t.withFunction s f).scope i = if i = s then
      { t.scope i with symbols := enterName (t.scope i).symbols f.name t.symbols.size } else t.scope i := fun i =>
    scope_named _ s f.name t.symbols.size i (h.size ▸ hi)
  have habove : ∀ i, ((T.withFunction s f).scope i).above = (T.scope i).above := fun i => by
    rw [hscope]
    split <;> rfl
  constructor
  case replaying => exact h.replaying
  case current => exact h.current
  case size => simpa [SymbolTable.withFunction, named, added] using h.size
  case scope_eq =>
    intro i
    rw [hscope, hscope', h.symbols_size]
    split
    · rw [h.scope_eq i]
    · exact h.scope_eq i
  case next_eq =>
    intro i hin
    have hnext : ((t.withFunction s f).scope i).next = (t.scope i).next := by
      rw [hscope']
      split <;> rfl
    rw [hnext, h.next_eq i hin]
    simp only [childrenBelow, habove]
  case symbols_size => simp [SymbolTable.withFunction, named, added, modifyScope, h.symbols_size]
  case symbol_eq =>
    intro v
    have hT : (T.withFunction s f).symbol v = if v = T.symbols.size then .function f else T.symbol v := symbol_push T _ v
    have ht : (t.withFunction s f).symbol v = if v = t.symbols.size then .function f else t.symbol v := symbol_push t _ v
    rw [hT, ht, h.symbols_size]
    split
    · rfl
    · exact h.symbol_eq v
  case strings_eq => exact h.strings_eq
  case scope_lt => exact h.scope_lt

def IsFree (T : SymbolTable) (x : String) : Prop := ∀ v, T.named? 0 (some x) = some v → (T.symbol v).isObject = false

/-- A later table with the same scopes, in which the variables still have their names. -/
structure Joins (T T' : SymbolTable) : Prop extends Extends Symbol.isObject T T' where
  built : Built T'
  isFunction : ∀ i, (T'.scope i).isFunction = (T.scope i).isFunction
  isFree : ∀ x, T.IsFree x → T'.IsFree x

theorem Joins.refl (hT : Built T) : Joins T T := ⟨.refl _ _, hT, fun _ => rfl, fun _ h => h⟩

theorem Joins.trans {T1 T' : SymbolTable} (h : Joins T T1) (h' : Joins T1 T') : Joins T T' :=
  ⟨h.toExtends.trans h'.toExtends, h'.built, fun i => (h'.isFunction i).trans (h.isFunction i),
    fun x hx => h'.isFree x (h.isFree x hx)⟩

theorem joins_withFunction (hT : Built T) (hname : f.name = some x) (hseen : f.seen = none) (hfree : T.IsFree x) :
    Joins T (T.withFunction 0 f) := by
  have hE := enters_withFunction hT.root_lt f
  refine ⟨hE.extends hT fun v hv => hfree v (by rw [← hname]; exact hv), ?_, hE.isFunction, fun y hy v hv => ?_⟩
  · exact hE.built hT (fun g hg => ⟨rfl, by cases hg; exact hseen⟩) fun o ho => by cases ho
  · rw [hE.named?] at hv
    split at hv
    · cases hv
      rw [hE.symbol_eq, if_pos rfl]
      rfl
    · have hlt : v < T.symbols.size := hT.entry_lt 0 _ (mem_of_named? hv)
      rw [hE.symbol_eq, if_neg (by omega)]
      exact hy v hv

/-- What is visible at the top of a program does not change when a function is entered. -/
theorem Seeing.withFunction {key : ObjectSymbol → Nat → Prop} {env : Lexical.Env} (hT : Built T) (h : Seeing key T 0 n env t)
    (hlocals : env.locals = []) (hname : f.name = some x) (hfree : T.IsFree x) :
    Seeing key (T.withFunction 0 f) 0 n env (t.withFunction 0 f) := by
  refine ⟨h.replays.withFunction hT.root_lt f, ?_⟩
  have hE := enters_withFunction hT.root_lt f
  have ht : ∀ v, (t.withFunction 0 f).symbol v = if v = t.symbols.size then .function f else t.symbol v := symbol_push t _
  have hshows := h.shows
  rw [around, hT.root_above, hlocals] at hshows
  rw [around, hE.above, hT.root_above, hlocals]
  cases hshows with
  | root hb =>
    refine .root fun y i => (hb y i).trans (exists_congr fun v => exists_congr fun o => ?_)
    rw [hE.named?, ht, h.replays.symbols_size]
    by_cases hy : some y = (Symbol.function f).name
    · have hxy : y = x := Option.some.inj (hy.trans hname)
      subst hxy
      rw [if_pos ⟨rfl, hy⟩]
      constructor
      · rintro ⟨hv, ho, -⟩
        have := hfree v hv
        rw [← h.replays.symbol_eq v, ho] at this
        cases this
      · rintro ⟨hv, ho, -⟩
        rw [if_pos (Option.some.inj hv).symm] at ho
        cases ho
    · rw [if_neg fun hand => hy hand.2]
      refine and_congr_right fun hv => ?_
      have hlt : v < T.symbols.size := hT.entry_lt 0 _ (mem_of_named? hv)
      rw [if_neg (by omega)]

end SymbolTable

namespace Lexical

open SymbolTable

variable {T T' t : SymbolTable} {sp : Spot} {s s' : PassState} {n n' : Node} {above : List Node}

/-! ## Later tables -/

theorem Settled.joins (h : Settled T sp n) (hj : Joins T T') : Settled T' sp n := by
  refine ⟨fun x hx => ?_, fun ho => ?_⟩
  · obtain ⟨v, o, hv, ho, hid⟩ := h.declares x hx
    obtain ⟨hv', hsymbol⟩ := hj.named_eq _ _ _ hv (by rw [ho]; rfl)
    exact ⟨v, o, hv', hsymbol.trans ho, hid⟩
  · obtain ⟨hlt, habove, hfunction⟩ := h.opens ho
    exact ⟨Nat.lt_of_lt_of_le hlt hj.scopes_le, (hj.above_eq _ hlt).trans habove, (hj.isFunction _).trans hfunction⟩

theorem levelTo_joins (hj : Joins T T') (i : Nat) (level : Int) (chain : List Nat) :
    levelTo T' i level chain = levelTo T i level chain := by
  induction chain generalizing level with
  | nil => rfl
  | cons s rest ih => simp only [levelTo, hj.isFunction, ih]

theorem Linked.joins (hj : Joins T T') {k : Kind} (h : Linked T sp k) : Linked T' sp k := by
  cases k with
  | name x type symbol =>
    obtain ⟨v, i, o, level, hv, hsymbol, hfind, hscope, hnamed, hlevel⟩ := h
    obtain ⟨hnamed', heq⟩ := hj.named_eq _ _ _ hnamed (by rw [hsymbol]; rfl)
    exact ⟨v, i, o, level, hv, heq.trans hsymbol, hfind, hscope, hnamed', (levelTo_joins hj ..).trans hlevel⟩
  | _ => trivial

theorem Resolved.joins (h : Resolved T sp n) (hj : Joins T T') : Resolved T' sp n :=
  ⟨h.toSettled.joins hj, fun hi => (h.linked hi).mono fun _ hk => hk.joins hj⟩

mutual

theorem Throughout.mono {P Q : Spot → Node → Prop} (hPQ : ∀ sp n, P sp n → Q sp n) {sp : Spot} {n : Node}
    (h : Throughout P sp n) : Throughout Q sp n := by
  match n with
  | .mk id kind o cs => exact ⟨hPQ _ _ h.1, fun hk => ThroughoutAll.mono hPQ (h.2 hk)⟩

theorem ThroughoutAll.mono {P Q : Spot → Node → Prop} (hPQ : ∀ sp n, P sp n → Q sp n) {sp : Spot} {ns : List Node}
    (h : ThroughoutAll P sp ns) : ThroughoutAll Q sp ns := by
  match ns with
  | [] => trivial
  | n :: ns => exact ⟨Throughout.mono hPQ h.1, ThroughoutAll.mono hPQ h.2⟩

end

/-! ## Functions for input and output -/

/-- No variable of the file has the name of a function for input or output. -/
def LibraryFree (T : SymbolTable) : Prop := T.IsFree "printf" ∧ T.IsFree "scanf"

theorem Resolving.withFunction {f : FunctionSymbol} {x : String} (hT : Built T) (h : Resolving T sp t) (hscope : sp.scope = 0)
    (hlocals : sp.env.locals = []) (hname : f.name = some x) (hfree : T.IsFree x) :
    Resolving (T.withFunction 0 f) sp (t.withFunction 0 f) := by
  obtain ⟨hseeing, habove⟩ := h
  rw [hscope] at hseeing habove
  refine ⟨by rw [hscope]; exact hseeing.withFunction hT hlocals hname hfree, ?_⟩
  rw [hscope, (enters_withFunction hT.root_lt f).above, habove]

/-- A function is entered at the top of a program. -/
theorem resolve_insert {f : FunctionSymbol} {x : String} {v : Nat} (hT : Built T) (hscope : sp.scope = 0)
    (hlocals : sp.env.locals = []) (hname : f.name = some x) (hseen : f.seen = none) (hfree : T.IsFree x)
    (h : Resolving T sp s.table) (hr : Runs (Pass.onTable (insertFunction f)) s v s') :
    ∃ T', Joins T T' ∧ Resolving T' sp s'.table := by
  obtain ⟨t, ht, rfl⟩ := runs_onTable.1 hr
  have hcurrent : s.table.current = some 0 := hscope ▸ h.seeing.replays.current
  obtain ⟨-, rfl⟩ := (runs_insertFunction_iff hcurrent).1 ht
  have hname' : ({ f with depth := s.table.functionDepth } : FunctionSymbol).name = some x := hname
  exact ⟨_, joins_withFunction hT hname' hseen hfree, h.withFunction hT hscope hlocals hname' hfree⟩

theorem resolve_includeLibrary {u : Unit} (hT : Built T) (hscope : sp.scope = 0) (hlocals : sp.env.locals = [])
    (hfree : LibraryFree T) (h : Resolving T sp s.table) (hr : Runs Resolve.includeLibrary s u s') :
    ∃ T', Joins T T' ∧ Resolving T' sp s'.table := by
  have hverdict : ∀ {y : Symbol} {r : Verdict} {s s' : PassState}, Runs (Pass.onTable (verdict y)) s r s' → s' = s := by
    intro y r s s' hr
    obtain ⟨t, ht, rfl⟩ := runs_onTable.1 hr
    rw [table_of_verdict ht]
  obtain ⟨first, s1, h1, hrest⟩ := runs_bind.1 hr
  obtain ⟨second, s2, h2, hinsert⟩ := runs_bind.1 hrest
  have hs : s2 = s := (hverdict h2).trans (hverdict h1)
  have hlast : ∀ {T1 : SymbolTable} {s1 : PassState}, Joins T T1 → Resolving T1 sp s1.table → Runs (do
      if Resolve.includeLibrary.inserts second then
        let _ ← Pass.onTable (insertFunction (Resolve.libraryFunction "scanf"))) s1 u s' →
        ∃ T', Joins T T' ∧ Resolving T' sp s'.table := by
    intro T1 s1 hj h1 hr
    split at hr
    · obtain ⟨v, s2, hv, hpure⟩ := runs_bind.1 hr
      obtain ⟨-, rfl⟩ := runs_pure.1 hpure
      obtain ⟨T', hj', h'⟩ := resolve_insert hj.built hscope hlocals rfl rfl (hj.isFree _ hfree.2) h1 hv
      exact ⟨T', hj.trans hj', h'⟩
    · obtain ⟨-, rfl⟩ := runs_pure.1 hr
      exact ⟨T1, hj, h1⟩
  subst hs
  dsimp only at hinsert
  split at hinsert
  · obtain ⟨v, s3, hv, hsecond⟩ := runs_bind.1 hinsert
    obtain ⟨T1, hj, h3⟩ := resolve_insert hT hscope hlocals rfl rfl hfree.1 h hv
    exact hlast hj h3 hsecond
  · exact hlast (.refl hT) h hinsert

/-! ## Programs -/

theorem resolve_item (hf : n.formed = true) (hitem : n.kind.isItem = true) (habove : above.map (·.kind.bare) = sp.above)
    (hT : Built T) (hscope : sp.scope = 0) (hlocals : sp.env.locals = []) (hfree : LibraryFree T)
    (hn : Throughout (Settled T) sp n) (h : Resolving T sp s.table) (hq : Quiet (Resolve.visit above n) s n' s') :
    ∃ T', Joins T T' ∧ Resolving T' (sp.past n) s'.table ∧ Throughout (Resolved T') sp n' := by
  obtain ⟨id, kind, o, cs⟩ := n
  cases kind with
  | function head =>
    obtain ⟨h', hn'⟩ := resolve_function hf habove hT hlocals hn h hq
    exact ⟨T, .refl hT, h', hn'⟩
  | variableDeclaration spec =>
    obtain ⟨h', hn'⟩ := resolve_visit _ hf rfl sp (.inr rfl) habove hT hn h hq
    exact ⟨T, .refl hT, h', hn'⟩
  | includeFile std name =>
    obtain ⟨rfl, -⟩ : cs = [] ∧ Node.formedAll cs = true := by simpa [Node.formed, Kind.admits] using hf
    have hpast : ∀ {T' t}, Resolving T' sp t → Resolving T' (sp.past (.mk id (.includeFile std name) o [])) t := fun h' => by
      rw [Spot.past_closed rfl, Spot.pastAll_nil]
      exact h'.congr rfl rfl rfl rfl
    have hself : ∀ {T'}, Joins T T' → Throughout (Resolved T') sp (.mk id (.includeFile std name) o []) := fun hj =>
      ⟨⟨hn.1.joins hj, fun hi => by cases hi⟩, fun _ => trivial⟩
    have hruns := hq.runs
    unfold Resolve.visit at hruns
    dsimp only at hruns
    split at hruns
    · obtain ⟨u, s1, hinclude, hpure⟩ := runs_bind.1 hruns
      obtain ⟨rfl, rfl⟩ := runs_pure.1 hpure
      obtain ⟨T', hj, h'⟩ := resolve_includeLibrary hT hscope hlocals hfree h hinclude
      exact ⟨T', hj, hpast h', hself hj⟩
    · obtain ⟨rfl, rfl⟩ := runs_pure.1 hruns
      exact ⟨T, .refl hT, hpast h, hself (.refl hT)⟩
  | _ => cases hitem

theorem resolve_items (ns : List Node) (hf : Node.formedAll ns = true) (hitems : ∀ n ∈ ns, n.kind.isItem = true)
    (sp : Spot) {ns' : List Node} (habove : above.map (·.kind.bare) = sp.above) (hT : Built T) (hscope : sp.scope = 0)
    (hlocals : sp.env.locals = []) (hfree : LibraryFree T) (hns : ThroughoutAll (Settled T) sp ns)
    (h : Resolving T sp s.table) (hq : Quiet (Resolve.visitAll above ns) s ns' s') :
    ∃ T', Joins T T' ∧ Resolving T' (sp.pastAll ns) s'.table ∧ ThroughoutAll (Resolved T') sp ns' := by
  induction ns generalizing sp T s ns' with
  | nil =>
    obtain ⟨rfl, rfl⟩ := Resolve.quiet_nil hq
    exact ⟨T, .refl hT, h, trivial⟩
  | cons n ns ih =>
    obtain ⟨hn, hfs⟩ := Bool.and_eq_true_iff.1 hf
    obtain ⟨m, ms, s1, rfl, hm, hms⟩ := Resolve.visits.quiet_cons hq
    obtain ⟨T1, hj, h1, hm'⟩ := resolve_item hn (hitems n List.mem_cons_self) habove hT hscope hlocals hfree hns.1 h hm
    have hlocals' : (sp.past n).env.locals = [] := by
      have hempty := (Env.deeper_past sp.env sp.above n.bare).isEmpty
      rw [hlocals] at hempty
      exact List.isEmpty_iff.1 hempty
    obtain ⟨T', hj', h', hms'⟩ := ih hfs (fun m hm => hitems m (List.mem_cons_of_mem n hm)) (sp.past n) habove hj.built hscope
      hlocals' ⟨hj.isFree _ hfree.1, hj.isFree _ hfree.2⟩ (hns.2.mono fun _ _ hsettled => hsettled.joins hj) h1 hms
    rw [Spot.pastAll_cons]
    refine ⟨T', hj.trans hj', h', hm'.mono fun _ _ hresolved => hresolved.joins hj', ?_⟩
    rw [Spot.past_congr (Resolve.gives_visit _ _ _ _ _ hm.runs)]
    exact hms'

/-- The second pass over a program in which no variable of the file has the name of a function for input or output. -/
theorem resolve_program {id : Nat} {o : Option ParseTree} {cs : List Node} (hf : (Node.mk id .program o cs).formed = true)
    (hT : Built T) (hfree : LibraryFree T) (hcs : ThroughoutAll (Settled T) (.top id) cs) (hs : s.table = T.reset)
    (hq : Quiet (Resolve.run (.mk id .program o cs)) s n' s') :
    ∃ cs' T', n' = .mk id .program o cs' ∧ Built T' ∧ Replays T' 0 1 s'.table ∧ ThroughoutAll (Resolved T') (.top id) cs' := by
  obtain ⟨hitems, hfs⟩ : (∀ c ∈ cs, c.kind.isItem = true) ∧ Node.formedAll cs = true := by
    simpa [Node.formed, Kind.admits] using hf
  obtain ⟨cs', s1, rfl, hvisit, hreset, -⟩ := Resolve.quiet_program hq
  have hstart : Resolving T (.top id) T.reset.startReplay := ⟨seeing_start hT, hT.root_above⟩
  obtain ⟨T', hj, h', hcs'⟩ := resolve_items cs hfs hitems (.top id) rfl hT rfl rfl hfree hcs
    (by rw [hs]; exact hstart) hvisit
  rw [hreset]
  exact ⟨cs', T', rfl, hj.built, h'.seeing.replays.reset hj.built.toRooted, hcs'⟩

end Lexical

end MiniC
