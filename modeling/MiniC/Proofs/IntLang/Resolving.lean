import MiniC.Proofs.IntLang.Code
import MiniC.Proofs.IntLang.Filling
import MiniC.Proofs.Scope.Visible

/-!
# Resolving names of the integer language

In the second pass the variables that are visible in the open scopes are those that the environment of the place
binds, with their addresses. So each name gets the symbol of the variable that it stands for, with its address and
level. `Resolved T` is what the pass makes true of the tree.
-/

namespace MiniC.IntLang

open SymbolTable Resolve

/-- The number of a variable in its frame. -/
def Var.index : Var → Nat
  | .frame i => i
  | .global i => i

theorem Var.offset_eq (w : Var) : w.offset = w.index + Emit.frameOffset := by cases w <;> rfl

structure Stands (T : SymbolTable) (pl : Place) (x : String) (v : Nat) (w : Var) : Prop where
  find : pl.env.find? x = some w
  address : (T.symbol v).address = some (w.index : Int)
  level : levelOf.go T v 0 (around T pl.scope) = some (pl.env.level w)

/-- What the second pass makes true of a node. -/
def Resolved (T : SymbolTable) (pl : Place) : Kind → Prop
  | .name x type symbol => ∃ t v w, type = some t ∧ t.IsInt ∧ symbol = some v ∧ Stands T pl x v w
  | .call name callee _ => ∀ f, name = some f →
      ∃ c, callee = some c ∧ c.name = f ∧ c.isLibrary = false ∧ c.type.IsInt ∧ Defines T f
  | kind => Entered T pl kind

/-! ## The table during the pass -/

/-- The names of a place with the addresses of their variables. -/
def Env.names (env : Env) : Lexical.Env := ⟨env.scopes, env.globals⟩

def HasAddress (o : ObjectSymbol) (i : Nat) : Prop := o.address = some (i : Int)

/-- The table while the pass is at a place. -/
def Resolving (T : SymbolTable) (pl : Place) (t : SymbolTable) : Prop :=
  Seeing HasAddress T pl.scope pl.scopes pl.env.names t

section

variable {T t t' : SymbolTable} {pl : Place} {s n v : Nat} {x : String}

theorem Env.names_declare (env : Env) (x : String) : (env.declare x).names = env.names.declare x env.next := by
  obtain ⟨scopes, globals, next⟩ := env
  cases scopes <;> rfl

/-- The variable that a name stands for, from its number and level. -/
theorem Env.find?_of_names {env : Env} {i : Nat} {level : Int} (h : env.names.find? x = some (i, level)) :
    ∃ w, env.find? x = some w ∧ w.index = i ∧ env.level w = level := by
  obtain ⟨scopes, globals, next⟩ := env
  simp only [Lexical.Env.find?, Env.names] at h
  simp only [Env.find?]
  cases hlocal : scopes.findSome? (·.lookup x) with
  | some k =>
    rw [hlocal] at h
    cases h
    exact ⟨_, rfl, rfl, rfl⟩
  | none =>
    rw [hlocal] at h
    obtain ⟨k, hk, heq⟩ := Option.map_eq_some_iff.1 h
    cases heq
    exact ⟨.global i, by simp [hk], rfl, rfl⟩

/-- The variable is declared from here on. -/
theorem Resolving.declare (hT : IntBuilt T) (h : Resolving T pl t) (hd : Declares T pl x v) {stage : Nat} (hstage : 1 ≤ stage) :
    Resolving T (pl.declare x) (t.modifySymbol v (Symbol.setSeen stage)) := by
  obtain ⟨o, ho, haddr, -⟩ := hd.symbol
  have hkey : ∀ stage i, HasAddress { o with seen := stage } i ↔ i = pl.env.next := by
    intro stage i
    simp only [HasAddress, haddr, Option.some.injEq]
    omega
  have := Seeing.declare hT.toBuilt h hd.entry ho hstage hkey
  rwa [← Env.names_declare] at this

/-- A block is entered. -/
theorem Resolving.opened (hT : IntBuilt T) (h : Resolving T pl t) (hin : pl.env.inside = true) (ho : Opens T pl false)
    (hr : Runs (openScope false none) t () t') : Resolving T pl.opened t' :=
  Seeing.opened hT.toBuilt h ho.lt ho.above ho.isFunction (by simpa [Env.inside, Env.names] using hin) hr

/-- A block is left. -/
theorem Resolving.closed {inner : Place} (h : Resolving T inner t) (hscope : inner.scope = pl.scopes)
    (hlt : pl.scope < pl.scopes) (ho : Opens T pl false) (hglobals : inner.env.globals = pl.env.globals)
    (hscopes : inner.env.scopes.tail = pl.env.scopes) (hr : Runs closeScope t () t') :
    Resolving T (pl.closed inner) t' := by
  have hinner : pl.scopes < inner.scopes := hscope ▸ h.replays.scope_lt
  exact Seeing.closed h (Nat.lt_trans hlt hinner) (hscope ▸ ho.above) hglobals hscopes hr

theorem Resolving.function {name : Option String} (hT : IntBuilt T) (h : Resolving T pl t) (hout : pl.env.inside = false)
    (ho : Opens T pl true) (hr : Runs (openScope true name) t () t') : Resolving T pl.function t' := by
  have hnil : pl.env.scopes = [] := by simpa [Env.inside] using hout
  have := Seeing.opened hT.toBuilt h ho.lt ho.above ho.isFunction (by simp [Env.names, hnil]) hr
  simpa only [Resolving, Place.function, Env.names, Lexical.Env.opened, hnil] using this

/-- A function is left. -/
theorem Resolving.returned {inner : Place} (h : Resolving T inner t)
    (hout : pl.env.inside = false) (hscope : inner.scope = pl.scopes) (hlt : pl.scope < pl.scopes)
    (ho : Opens T pl true) (hglobals : inner.env.globals = pl.env.globals) (hlocals : inner.env.scopes.tail = [])
    (hr : Runs closeScope t () t') : Resolving T (pl.returned inner) t' := by
  have hnil : pl.env.scopes = [] := by simpa [Env.inside] using hout
  have hinner : pl.scopes < inner.scopes := hscope ▸ h.replays.scope_lt
  exact Seeing.closed h (Nat.lt_trans hlt hinner) (hscope ▸ ho.above) hglobals (hlocals.trans hnil.symm) hr

/-! ## Expressions -/

variable {st st' : PassState} {id : Nat} {o : Option ParseTree} {above ns ns' cs : List Node} {n' : Node}

/-- A name gets the symbol of the variable that it stands for. -/
theorem resolve_name {type : Option CType} {symbol : Option Nat} (hT : IntBuilt T) (hr : Resolving T pl st.table)
    (hq : Quiet (visit above (.mk id (.name x type symbol) o cs)) st n' st') :
    st'.table = st.table ∧ ∃ type' symbol', n' = .mk id (.name x type' symbol') o cs ∧
      Resolved T pl (.name x type' symbol') := by
  obtain ⟨v, stage, hlook, hseen, rfl, htable⟩ := quiet_name hq
  refine ⟨htable, _, _, rfl, ?_⟩
  rw [SymbolTable.lookup, hr.replays.chain] at hlook
  cases hv : st.table.symbol v with
  | function f =>
    have hT' := hr.replays.symbol_eq v
    rw [hv] at hT' hseen
    simp [Symbol.seen, (hT.function_eq v f hT'.symm).seen] at hseen
  | object obj =>
    obtain ⟨i, -, hl⟩ := List.exists_of_findSome?_eq_some hlook
    have hmem := mem_of_named? (lookupIn_cases hr.replays hl).1
    have hT' := hr.replays.symbol_eq v
    rw [hv] at hT'
    obtain ⟨htype, k, hk⟩ := hT.object_eq _ _ _ hmem hT'.symm
    obtain ⟨level, hfind, j, -, hentry, hlevel⟩ := hr.shows.find hr.replays hlook hv hk
    obtain ⟨w, hw, rfl, rfl⟩ := Env.find?_of_names hfind
    rw [← levelOf_go_eq hT.toBuilt hentry] at hlevel
    exact ⟨_, v, w, rfl, htype, rfl, hw, by rw [← hT']; exact hk, hlevel⟩

theorem resolve_call {f : String} {callee : Option Callee} {pieces : Option (List Piece)} (hT : IntBuilt T)
    (hr : Resolving T pl st.table) (hq : Quiet (visit above (.mk id (.call (some f) callee pieces) o cs)) st n' st') :
    ∃ callee' cs', n' = .mk id (.call (some f) callee' pieces) o cs' ∧ Resolved T pl (.call (some f) callee' pieces) ∧
      Quiet (visitAll (.mk id (.call (some f) callee pieces) o cs :: above) cs) st cs' st' := by
  obtain ⟨v, g, cs', hlook, hg, -, rfl, hcs⟩ := quiet_call hq
  refine ⟨_, cs', rfl, fun f' hf' => ?_, hcs⟩
  cases hf'
  obtain ⟨i, -, hl⟩ := List.exists_of_findSome?_eq_some hlook
  obtain ⟨hentry, -⟩ := lookupIn_cases hr.replays hl
  have hT' := hr.replays.symbol_eq v
  rw [hg] at hT'
  have hplain := hT.function_eq v g hT'.symm
  have hname := hT.name_eq i _ (mem_of_named? hentry)
  rw [← hT'] at hname
  obtain rfl := hT.function_root i _ g (mem_of_named? hentry) hT'.symm
  refine ⟨_, rfl, ?_, hplain.isLibrary, hplain.type, v, g, hentry, hT'.symm⟩
  have : g.name = some f := hname
  simp [calleeOf, this]

theorem resolve_exprs {ok : Kind → Prop} {es : List Expr} (hT : IntBuilt T) (h : Exprs ok ns es)
    (hq : Quiet (visitAll above ns) st ns' st') (hr : Resolving T pl st.table) :
    st'.table = st.table ∧ ns'.map Node.id = ns.map Node.id ∧ Exprs (Resolved T pl) ns' es := by
  induction h generalizing above st ns' st' with
  | nil =>
    obtain ⟨rfl, rfl⟩ := quiet_nil hq
    exact ⟨rfl, rfl, .nil⟩
  | cons _ _ ih ih' =>
    obtain ⟨m, ms, s1, rfl, hm, hms⟩ := visits.quiet_cons hq
    obtain ⟨ht, hids, he⟩ := ih (visits.quiet_singleton hm) hr
    obtain ⟨ht', hids', he'⟩ := ih' hms (ht ▸ hr)
    exact ⟨ht'.trans ht, by simp_all, .cons he he'⟩
  | int =>
    obtain ⟨cs, rfl, hcs⟩ := quiet_plain rfl hq
    obtain ⟨rfl, rfl⟩ := quiet_nil hcs
    exact ⟨rfl, rfl, .int⟩
  | var =>
    obtain ⟨m, rfl, hm⟩ := visits.quiet_one hq
    obtain ⟨ht, type, symbol, rfl, hok⟩ := resolve_name hT hr hm
    exact ⟨ht, rfl, .var hok⟩
  | call _ _ ih =>
    obtain ⟨m, rfl, hm⟩ := visits.quiet_one hq
    obtain ⟨callee, cs, rfl, hok, hcs⟩ := resolve_call hT hr hm
    obtain ⟨args, rfl, hargs⟩ := quiet_plain rfl hcs
    obtain ⟨ht, hids, he⟩ := ih hargs hr
    exact ⟨ht, rfl, .call hok he⟩
  | plus _ ih | minus _ ih | not _ ih =>
    obtain ⟨cs, rfl, hcs⟩ := quiet_plain rfl hq
    obtain ⟨ht, hids, he⟩ := ih hcs hr
    obtain ⟨m, rfl, -⟩ := visits.quiet_one hcs
    first
    | exact ⟨ht, rfl, .plus he⟩
    | exact ⟨ht, rfl, .minus he⟩
    | exact ⟨ht, rfl, .not he⟩
  | step up =>
    obtain ⟨cs, rfl, hcs⟩ := quiet_plain (by cases up <;> rfl) hq
    obtain ⟨m, rfl, hm⟩ := visits.quiet_one hcs
    obtain ⟨ht, type, symbol, rfl, hok⟩ := resolve_name hT hr hm
    exact ⟨ht, rfl, .step up hok⟩
  | assign _ _ ih =>
    obtain ⟨cs, rfl, hcs⟩ := quiet_plain rfl hq
    obtain ⟨m, ms, s1, rfl, hm, hms⟩ := visits.quiet_cons hcs
    obtain ⟨ht, type, symbol, rfl, hok⟩ := resolve_name hT hr hm
    obtain ⟨ht', hids, he⟩ := ih hms (ht ▸ hr)
    obtain ⟨m, rfl, -⟩ := visits.quiet_one hms
    exact ⟨ht'.trans ht, rfl, .assign hok he⟩
  | cond _ ih =>
    obtain ⟨cs, rfl, hcs⟩ := quiet_plain rfl hq
    obtain ⟨ht, hids, he⟩ := ih hcs hr
    obtain ⟨m, ms, s1, rfl, -, hms⟩ := visits.quiet_cons hcs
    obtain ⟨l, ls, s2, rfl, -, hls⟩ := visits.quiet_cons hms
    obtain ⟨r, rfl, -⟩ := visits.quiet_one hls
    exact ⟨ht, rfl, .cond he⟩
  | arith _ ih | compare _ ih | logic _ ih | comma _ ih =>
    obtain ⟨cs, rfl, hcs⟩ := quiet_plain rfl hq
    obtain ⟨ht, hids, he⟩ := ih hcs hr
    obtain ⟨l, ls, s1, rfl, -, hls⟩ := visits.quiet_cons hcs
    obtain ⟨r, rfl, -⟩ := visits.quiet_one hls
    first
    | exact ⟨ht, rfl, .arith he⟩
    | exact ⟨ht, rfl, .compare he⟩
    | exact ⟨ht, rfl, .logic he⟩
    | exact ⟨ht, rfl, .comma he⟩

/-! ## Statements -/

variable {ok : Place → Kind → Prop} {body : Stmt}

theorem resolve_initial {init : Option Expr} {ok : Kind → Prop} (hT : IntBuilt T) (h : Initial ok ns init)
    (hq : Quiet (visitAll above ns) st ns' st') (hr : Resolving T pl st.table) :
    st'.table = st.table ∧ Initial (Resolved T pl) ns' init := by
  cases h with
  | none =>
    obtain ⟨rfl, rfl⟩ := quiet_nil hq
    exact ⟨rfl, .none⟩
  | some h =>
    obtain ⟨cs, rfl, hcs⟩ := quiet_plain rfl hq
    obtain ⟨ht, -, he⟩ := resolve_exprs hT h hcs hr
    obtain ⟨m, rfl, -⟩ := visits.quiet_one hcs
    exact ⟨ht, .some he⟩

theorem resolve_decls (hT : IntBuilt T) (h : Decls (Entered T) pl ns body)
    (hq : Quiet (visitAll above ns) st ns' st') (hr : Resolving T pl st.table) :
    Resolving T (body.after pl) st'.table ∧ Decls (Resolved T) pl ns' body := by
  induction h generalizing st ns' st' with
  | nil =>
    obtain ⟨rfl, rfl⟩ := quiet_nil hq
    exact ⟨hr, .nil⟩
  | cons hok hinit _ ih =>
    obtain ⟨m, ms, s1, rfl, hm, hms⟩ := visits.quiet_cons hq
    obtain ⟨v, cs, s2, hlook, rfl, hcs, hs1⟩ := quiet_declarator hm
    obtain ⟨v', -, hd⟩ := id hok
    have hd := hd _ rfl
    obtain rfl : v' = v := Option.some.inj ((lookup_declared hr.replays hd.entry).symm.trans hlook)
    obtain ⟨hs2, hinit'⟩ := resolve_initial hT hinit hcs (hr.declare hT hd (Nat.le_refl 1))
    rw [hs2, setSeen_setSeen] at hs1
    have hr1 := hr.declare hT hd (Nat.le_succ 1)
    rw [← hs1] at hr1
    obtain ⟨hr', hrest⟩ := ih hms hr1
    exact ⟨hr', .cons hok hinit' hrest⟩

theorem resolve_params {xs : List String} (hT : IntBuilt T) (h : Params (Entered T) pl ns xs)
    (habove : above[1]?.any (·.kind.isDeclaration) = false) (hq : Quiet (visitAll above ns) st ns' st')
    (hr : Resolving T pl st.table) : Resolving T (pl.params xs) st'.table ∧ Params (Resolved T) pl ns' xs := by
  induction h generalizing st ns' st' with
  | nil =>
    obtain ⟨rfl, rfl⟩ := quiet_nil hq
    exact ⟨hr, .nil⟩
  | void =>
    obtain ⟨m, rfl, hm⟩ := visits.quiet_one hq
    obtain ⟨rfl, rfl⟩ := quiet_unnamed (.inr rfl) hm
    exact ⟨hr, .void⟩
  | cons hspec hok _ ih =>
    obtain ⟨m, ms, s1, rfl, hm, hms⟩ := visits.quiet_cons hq
    obtain ⟨v, hlook, rfl, hs1⟩ := quiet_parameter habove rfl hm
    obtain ⟨v', hd⟩ := hok _ rfl
    obtain rfl : v' = v := Option.some.inj ((lookup_declared hr.replays hd.entry).symm.trans hlook)
    have hr1 := hr.declare hT hd (Nat.le_succ 1)
    rw [← hs1] at hr1
    obtain ⟨hr', hrest⟩ := ih hms hr1
    exact ⟨hr', .cons hspec hok hrest⟩

theorem resolve_first (hT : IntBuilt T) (h : First (Entered T) pl ns body)
    (hq : Quiet (visitAll above ns) st ns' st') (hr : Resolving T pl st.table) :
    Resolving T (body.after pl) st'.table ∧ ns'.map Node.id = ns.map Node.id ∧ First (Resolved T) pl ns' body := by
  cases h with
  | none =>
    obtain ⟨rfl, rfl⟩ := quiet_nil hq
    exact ⟨hr, rfl, .none⟩
  | decls hspec h =>
    obtain ⟨cs, rfl, hcs⟩ := quiet_plain rfl hq
    obtain ⟨hr', hds⟩ := resolve_decls hT h hcs hr
    exact ⟨hr', rfl, .decls hspec hds⟩
  | expr h =>
    obtain ⟨ht, hids, he⟩ := resolve_exprs hT h hq hr
    obtain ⟨m, rfl, -⟩ := visits.quiet_one hq
    exact ⟨ht ▸ hr, hids, .expr he⟩

theorem resolve_part {c : Option Expr} {ok : Kind → Prop} (hT : IntBuilt T) (h : Part ok ns c)
    (hq : Quiet (visitAll above ns) st ns' st') (hr : Resolving T pl st.table) :
    st'.table = st.table ∧ ns'.map Node.id = ns.map Node.id ∧ Part (Resolved T pl) ns' c := by
  cases h with
  | none =>
    obtain ⟨rfl, rfl⟩ := quiet_nil hq
    exact ⟨rfl, rfl, .none⟩
  | some h =>
    obtain ⟨ht, hids, he⟩ := resolve_exprs hT h hq hr
    obtain ⟨m, rfl, -⟩ := visits.quiet_one hq
    exact ⟨ht, hids, .some he⟩

theorem resolve_statement {n : Node} (hq : Quiet (visitAll above [.mk id .statement o [n]]) st ns' st') :
    ∃ m, ns' = [.mk id .statement o [m]] ∧ Quiet (visit (.mk id .statement o [n] :: above) n) st m st' := by
  obtain ⟨cs, rfl, hcs⟩ := quiet_plain rfl hq
  obtain ⟨m, rfl, hm⟩ := visits.quiet_one hcs
  exact ⟨m, rfl, hm⟩

theorem Resolving.reloop (h : Resolving T pl t) (loop : Bool) : Resolving T { pl with loop } t := ⟨h.replays, h.shows⟩

theorem resolve_stmts (hT : IntBuilt T) (h : Stmts (Entered T) pl ns body)
    (hq : Quiet (visitAll above ns) st ns' st') (hr : Resolving T pl st.table) (hin : pl.env.inside = true) :
    Resolving T (body.after pl) st'.table ∧ Stmts (Resolved T) pl ns' body := by
  induction h generalizing above st ns' st' with
  | nil =>
    obtain ⟨rfl, rfl⟩ := quiet_nil hq
    exact ⟨hr, .nil⟩
  | cons _ _ ih ih' =>
    obtain ⟨m, ms, s1, rfl, hm, hms⟩ := visits.quiet_cons hq
    obtain ⟨hr1, h1⟩ := ih (visits.quiet_singleton hm) hr hin
    obtain ⟨hr', h'⟩ := ih' hms hr1 (by simpa using hin)
    exact ⟨hr', .cons h1 h'⟩
  | empty =>
    obtain ⟨cs, rfl, hcs⟩ := quiet_plain rfl hq
    obtain ⟨rfl, rfl⟩ := quiet_nil hcs
    exact ⟨hr, .empty⟩
  | expr h =>
    obtain ⟨m, rfl, hm⟩ := resolve_statement hq
    obtain ⟨ht, -, he⟩ := resolve_exprs hT h (visits.quiet_singleton hm) hr
    exact ⟨ht ▸ hr, .expr he⟩
  | decls hspec h =>
    obtain ⟨m, rfl, hm⟩ := resolve_statement hq
    obtain ⟨cs, rfl, hcs⟩ := quiet_visit_plain rfl hm
    obtain ⟨hr', hds⟩ := resolve_decls hT h hcs hr
    exact ⟨hr', .decls hspec hds⟩
  | block hok _ ih =>
    obtain ⟨m, rfl, hm⟩ := resolve_statement hq
    obtain ⟨t, cs, s1, rfl, hopen, hcs, hclose⟩ := quiet_block rfl hm
    obtain ⟨hr1, h1⟩ := ih hcs (hr.opened hT hin hok hopen) (by simp [Place.opened])
    refine ⟨hr1.closed (Stmt.scope_after ..) hr.replays.scope_lt hok ?_ ?_ hclose, .block hok h1⟩
    · rw [Stmt.env_after, Stmt.globals_bind _ rfl]; rfl
    · rw [Stmt.env_after, Stmt.tail_bind]; rfl
  | ifThen h _ ih =>
    obtain ⟨m, rfl, hm⟩ := resolve_statement hq
    obtain ⟨cs, rfl, hcs⟩ := quiet_visit_plain rfl hm
    obtain ⟨c, as, s1, rfl, hc, has⟩ := visits.quiet_cons hcs
    obtain ⟨ht, -, he⟩ := resolve_exprs hT h (visits.quiet_singleton hc) hr
    obtain ⟨hr', hs'⟩ := ih has (ht ▸ hr) hin
    obtain ⟨a, rfl, -⟩ := visits.quiet_one has
    exact ⟨hr', .ifThen he hs'⟩
  | ifElse h _ _ ih ih' =>
    obtain ⟨m, rfl, hm⟩ := resolve_statement hq
    obtain ⟨cs, rfl, hcs⟩ := quiet_visit_plain rfl hm
    obtain ⟨c, parts, s1, rfl, hc, hparts⟩ := visits.quiet_cons hcs
    obtain ⟨ht, -, he⟩ := resolve_exprs hT h (visits.quiet_singleton hc) hr
    obtain ⟨a, bs, s2, rfl, ha, hbs⟩ := visits.quiet_cons hparts
    obtain ⟨hr2, hs2⟩ := ih (visits.quiet_singleton ha) (ht ▸ hr) hin
    obtain ⟨rest, rfl, hrest⟩ := quiet_plain rfl hbs
    obtain ⟨hr', hs'⟩ := ih' hrest hr2 (by simpa using hin)
    obtain ⟨b, rfl, -⟩ := visits.quiet_one hrest
    exact ⟨hr', .ifElse he hs2 hs'⟩
  | whileLoop h _ ih =>
    obtain ⟨m, rfl, hm⟩ := resolve_statement hq
    obtain ⟨cs, rfl, hcs⟩ := quiet_visit_plain rfl hm
    obtain ⟨c, as, s1, rfl, hc, has⟩ := visits.quiet_cons hcs
    obtain ⟨ht, -, he⟩ := resolve_exprs hT h (visits.quiet_singleton hc) hr
    obtain ⟨hr', hs'⟩ := ih has ((ht ▸ hr).reloop true) hin
    obtain ⟨a, rfl, -⟩ := visits.quiet_one has
    exact ⟨hr'.reloop _, .whileLoop he hs'⟩
  | @forLoop pl _ _ _ _ is cs ts _ _ _ _ _ hok hfirst hc hit _ hids ih =>
    obtain ⟨m, rfl, hm⟩ := resolve_statement hq
    obtain ⟨t, children, s1, rfl, hopen, hchildren, hclose⟩ := quiet_forLoop hm
    obtain ⟨header, bodies, s2, rfl, hheader, hbody⟩ := visits.quiet_append hchildren
    obtain ⟨tests, its, s3, rfl, htests, hits⟩ := visits.quiet_append hheader
    obtain ⟨firsts, conds, s4, rfl, hfirsts, hconds⟩ := visits.quiet_append htests
    obtain ⟨hr1, hfids, h1⟩ := resolve_first hT hfirst hfirsts (hr.opened hT hin hok hopen)
    obtain ⟨ht2, hcids, h2⟩ := resolve_part hT hc hconds hr1
    obtain ⟨ht3, htids, h3⟩ := resolve_part hT hit hits (ht2 ▸ hr1)
    obtain ⟨hr4, h4⟩ := ih hbody ((ht3.trans ht2 ▸ hr1).reloop true) (by simp [Place.looped, Place.opened])
    obtain ⟨b, rfl, -⟩ := visits.quiet_one hbody
    have hdiffer : ∀ t ∈ its, ∀ n ∈ firsts ++ conds, n.id ≠ t.id := by
      refine differ_of_ids ?_ htids hids
      simp [hfids, hcids]
    rw [isEmpty_of_ids hfids, isEmpty_of_ids hcids, isEmpty_of_ids htids] at hok ⊢
    refine ⟨hr4.closed ?_ hr.replays.scope_lt hok ?_ ?_ hclose, .forLoop hok h1 h2 h3 h4 hdiffer⟩
    · simp [Place.looped, Place.opened]
    · rw [Stmt.env_after, Stmt.globals_bind _ (by simp [Place.looped, Place.opened])]
      simp only [Place.looped]
      rw [Stmt.env_after, Stmt.globals_bind _ rfl]
      rfl
    · rw [Stmt.env_after, Stmt.tail_bind]
      simp only [Place.looped]
      rw [Stmt.env_after, Stmt.tail_bind]
      rfl
  | ret h =>
    obtain ⟨m, rfl, hm⟩ := resolve_statement hq
    obtain ⟨cs, rfl, hcs⟩ := quiet_visit_plain rfl hm
    obtain ⟨ht, -, he⟩ := resolve_exprs hT h hcs hr
    obtain ⟨a, rfl, -⟩ := visits.quiet_one hcs
    exact ⟨ht ▸ hr, .ret he⟩
  | brk hok =>
    obtain ⟨m, rfl, hm⟩ := resolve_statement hq
    obtain ⟨cs, rfl, hcs⟩ := quiet_visit_plain rfl hm
    obtain ⟨rfl, rfl⟩ := quiet_nil hcs
    exact ⟨hr, .brk hok⟩
  | cont hok =>
    obtain ⟨m, rfl, hm⟩ := resolve_statement hq
    obtain ⟨cs, rfl, hcs⟩ := quiet_visit_plain rfl hm
    obtain ⟨rfl, rfl⟩ := quiet_nil hcs
    exact ⟨hr, .cont hok⟩

/-! ## Programs -/

theorem resolve_items {sized : Place → Nat → Prop} {p : Program} {program : Node} (hT : IntBuilt T)
    (h : Items (Entered T) sized pl ns p) (hq : Quiet (visitAll [program] ns) st ns' st')
    (hr : Resolving T pl st.table) (hroot : pl.scope = 0) (hout : pl.env.inside = false) :
    (∃ n, Replays T 0 n st'.table) ∧ Items (Resolved T) sized pl ns' p := by
  induction h generalizing st ns' st' with
  | nil =>
    obtain ⟨rfl, rfl⟩ := quiet_nil hq
    exact ⟨⟨_, hroot ▸ hr.replays⟩, .nil⟩
  | vars hspec hdecls _ ih =>
    obtain ⟨m, ms, s1, rfl, hm, hms⟩ := visits.quiet_cons hq
    obtain ⟨cs, rfl, hcs⟩ := quiet_visit_plain rfl hm
    obtain ⟨hr1, hds⟩ := resolve_decls hT hdecls hcs hr
    obtain ⟨hn, hitems⟩ := ih hms hr1 (by simpa using hroot) (by simpa using hout)
    exact ⟨hn, .vars hspec hds hitems⟩
  | @function pl _ _ _ _ _ _ _ _ _ _ xs _ body _ _ hform hspec hok hsized hps hbody _ ih =>
    obtain ⟨hopens, -⟩ := id hok
    obtain ⟨m, ms, s1, rfl, hm, hms⟩ := visits.quiet_cons hq
    obtain ⟨t, cs, s2, rfl, hopen, hcs, hclose⟩ := quiet_function hform hm
    obtain ⟨params, rest, s3, rfl, hparams, hrest⟩ := visits.quiet_cons hcs
    obtain ⟨ps, rfl, hps'⟩ := quiet_visit_plain rfl hparams
    obtain ⟨m, rfl, hlast⟩ := visits.quiet_one hrest
    obtain ⟨ss, rfl, hss⟩ := quiet_body (by simp [Fill.opensScope, Node.kind, Kind.isDefinition, hform]) hlast
    obtain ⟨hr3, hps3⟩ := resolve_params hT hps (by simp [Node.kind, Kind.isDeclaration, hform]) hps'
      (hr.function hT hout hopens hopen)
    have hinside : (pl.function.params xs).env.inside = true := by rw [Place.env_params, Env.inside_declareAll]; rfl
    obtain ⟨hr2, hss2⟩ := resolve_stmts hT hbody hss hr3 hinside
    have hglobals : (body.after (pl.function.params xs)).env.globals = pl.env.globals := by
      rw [Stmt.env_after, Stmt.globals_bind _ hinside, Place.env_params, Env.globals_declareAll]
      · rfl
      · rfl
    have hlocals : (body.after (pl.function.params xs)).env.scopes.tail = [] := by
      rw [Stmt.env_after, Stmt.tail_bind, Place.env_params, Env.tail_declareAll]
      rfl
    have hr1 := hr2.returned hout (by rw [Stmt.scope_after, Place.scope_params]; rfl) hr.replays.scope_lt
      hopens hglobals hlocals hclose
    obtain ⟨hn, hitems⟩ := ih hms hr1 hroot hout
    exact ⟨hn, .function hform hspec hok hsized hps3 hss2 hitems⟩

/-- The second pass over a program. -/
theorem resolve_program {sized : Place → Nat → Prop} {p : Program} (hT : IntBuilt T)
    (h : Items (Entered T) sized .start ns p) (hq : Quiet (Resolve.run (.mk id .program o ns)) st n' st')
    (hs : st.table = T.reset) :
    ∃ ns', n' = .mk id .program o ns' ∧ Replays T 0 1 st'.table ∧ Items (Resolved T) sized .start ns' p := by
  obtain ⟨ns', s1, rfl, hns', hreset, -⟩ := quiet_program hq
  obtain ⟨⟨n, hn⟩, hitems⟩ := resolve_items hT h hns' (by rw [hs]; exact seeing_start hT.toBuilt) rfl rfl
  rw [hreset]
  exact ⟨ns', rfl, hn.reset hT.toRooted, hitems⟩

end

end MiniC.IntLang
