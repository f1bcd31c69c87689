import MiniC.Proofs.Scope.Filling
import MiniC.Proofs.Scope.Visible

/-!
# Resolving names

The second pass goes over the scopes of the table in the order in which they were made, so that at every place it
sees what is visible there by the lexical rules. If it finds no error, each name has got the symbol of the variable
whose declaration is visible: this is `Linked`.
-/

namespace MiniC.Lexical

open Resolve

variable {id : Nat} {o : Option ParseTree} {cs : List Node} {kind : Kind}

open SymbolTable

variable {T t t' : SymbolTable} {sp : Spot} {s s' : PassState} {n n' : Node} {above ns ns' : List Node} {x : String}

def DeclaredBy (o : ObjectSymbol) (id : Nat) : Prop := o.node = id

/-- A symbol is that of the variable that a name stands for at a place, and the frames between are as many as the
lexical rules tell. -/
structure StandsFor (T : SymbolTable) (sp : Spot) (x : String) (v i : Nat) (o : ObjectSymbol) (level : Int) : Prop where
  symbol : T.symbol v = .object o
  find : sp.env.find? x = some (o.node, level)
  scope : i ∈ sp.scope :: sp.around
  named : T.named? i (some x) = some v
  level : levelTo T i 0 (sp.scope :: sp.around) = some level

def Linked (T : SymbolTable) (sp : Spot) : Kind → Prop
  | .name x _ symbol => ∃ v i o level, symbol = some v ∧ StandsFor T sp x v i o level
  | _ => True

/-- What the second pass makes true of a node. -/
structure Resolved (T : SymbolTable) (sp : Spot) (n : Node) : Prop extends Settled T sp n where
  linked : n.kind.isInert = true → n.Each (Linked T sp)

/-- The table while the pass is at a place. -/
structure Resolving (T : SymbolTable) (sp : Spot) (t : SymbolTable) : Prop where
  seeing : Seeing DeclaredBy T sp.scope sp.next sp.env t
  above : (T.scope sp.scope).above = sp.around

theorem Settled.refines (h : Settled T sp n) (hid : n'.id = n.id) (hkind : n'.kind.bare = n.kind.bare) : Settled T sp n' := by
  have hdefinition : n'.kind.isDefinition = n.kind.isDefinition := by
    rw [← Kind.isDefinition_bare, hkind, Kind.isDefinition_bare]
  exact ⟨fun x hx => hid ▸ h.declares x (hkind ▸ hx), fun ho => hdefinition ▸ h.opens (hkind ▸ ho)⟩

theorem Settled.congr (h : Settled T sp n) (hbare : n'.bare = n.bare) : Settled T sp n' := by
  refine h.refines ?_ (by rw [← Node.kind_bare, hbare, Node.kind_bare])
  cases n
  cases n'
  exact (Node.mk.inj hbare).1

/-! ## Expressions -/

theorem linked_name {type : Option CType} {symbol : Option Nat} (hT : Built T) (h : Resolving T sp s.table)
    (hq : Quiet (visit above (.mk id (.name x type symbol) o cs)) s n' s') :
    s'.table = s.table ∧ ∃ type' symbol', n' = .mk id (.name x type' symbol') o cs ∧ Linked T sp (.name x type' symbol') := by
  obtain ⟨v, stage, hlook, hseen, rfl, htable⟩ := quiet_name hq
  have hreplays := h.seeing.replays
  refine ⟨htable, _, _, rfl, ?_⟩
  rw [SymbolTable.lookup, hreplays.chain, h.above] at hlook
  have hT' := hreplays.symbol_eq v
  cases hv : s.table.symbol v with
  | function f =>
    rw [hv] at hT' hseen
    simp [Symbol.seen, hT.unseen_function v f hT'.symm] at hseen
  | object obj =>
    rw [hv] at hT'
    have hshows := h.seeing.shows
    rw [around, h.above] at hshows
    obtain ⟨level, hfind, i, hi, hnamed, hlevel⟩ := hshows.find hreplays hlook hv rfl
    exact ⟨v, i, _, level, rfl, hT'.symm, hfind, hi, hnamed, hlevel⟩

mutual

theorem resolve_inert (n : Node) (hf : n.formed = true) (hi : n.kind.isInert = true) {above : List Node}
    {s s' : PassState} {n' : Node} (hT : Built T) (h : Resolving T sp s.table)
    (hq : Quiet (visit above n) s n' s') : s'.table = s.table ∧ n'.Each (Linked T sp) := by
  match n with
  | .mk id kind o cs =>
    obtain ⟨hcs, hinert⟩ := inert_children hf hi
    by_cases hplain : isPlain kind = true
    · obtain ⟨cs', rfl, hvisit⟩ := quiet_visit_plain hplain hq
      obtain ⟨htable, hcs'⟩ := resolve_inertAll cs hcs hinert hT h hvisit
      refine ⟨htable, ?_, hcs'⟩
      cases kind <;> trivial
    · cases kind with
      | name x type symbol =>
        obtain ⟨htable, type', symbol', rfl, hlinked⟩ := linked_name hT h hq
        obtain rfl : cs = [] := by
          simp only [Node.formed, Kind.admits, Bool.and_eq_true, List.isEmpty_map, List.isEmpty_iff] at hf
          exact hf.1
        exact ⟨htable, hlinked, trivial⟩
      | call called callee pieces =>
        obtain ⟨w, f, cs', -, -, -, rfl, hvisit⟩ := quiet_call hq
        obtain ⟨htable, hcs'⟩ := resolve_inertAll cs hcs hinert hT h hvisit
        exact ⟨htable, trivial, hcs'⟩
      | _ => first | exact (hplain rfl).elim | cases hi

theorem resolve_inertAll (ns : List Node) (hf : Node.formedAll ns = true) (hi : ∀ n ∈ ns, n.kind.isInert = true)
    {above : List Node} {s s' : PassState} {ns' : List Node} (hT : Built T) (h : Resolving T sp s.table)
    (hq : Quiet (visitAll above ns) s ns' s') : s'.table = s.table ∧ Node.EachAll (Linked T sp) ns' := by
  match ns with
  | [] =>
    obtain ⟨rfl, rfl⟩ := quiet_nil hq
    exact ⟨rfl, trivial⟩
  | n :: ns =>
    obtain ⟨hn, hns⟩ := Bool.and_eq_true_iff.1 hf
    obtain ⟨m, ms, s1, rfl, hm, hms⟩ := visits.quiet_cons hq
    obtain ⟨ht, hm'⟩ := resolve_inert n hn (hi n List.mem_cons_self) hT h hm
    obtain ⟨ht', hms'⟩ := resolve_inertAll ns hns (fun m hm => hi m (List.mem_cons_of_mem n hm)) hT (ht ▸ h) hms
    exact ⟨ht'.trans ht, hm', hms'⟩

end

/-! ## Steps -/

theorem Resolving.congr {sp' : Spot} (h : Resolving T sp t) (henv : sp'.env = sp.env) (hscope : sp'.scope = sp.scope)
    (haround : sp'.around = sp.around) (hnext : sp'.next = sp.next) : Resolving T sp' t :=
  ⟨by rw [henv, hscope, hnext]; exact h.seeing, by rw [hscope, haround]; exact h.above⟩

/-- A node is entered that has no scope of its own and declares nothing. -/
theorem Resolving.into_plain (h : Resolving T sp t) (id : Nat) (hopens : opens sp.above kind.bare = false)
    (hdeclares : declares? sp.above kind.bare = none) : Resolving T (sp.into id kind) t :=
  h.congr (by simp [Spot.into, Env.within, hopens, hdeclares]) (by simp [Spot.into, hopens]) (by simp [Spot.into, hopens])
    (by simp [Spot.into, hopens])

/-- A node is entered that declares a variable. -/
theorem Resolving.declared {v stage : Nat} (hT : Built T) (h : Resolving T sp t)
    (hopens : opens sp.above kind.bare = false) (hx : declares? sp.above kind.bare = some x)
    (hd : Declares T sp.scope x id) (hlook : t.lookup (some x) 0 = some v) (hstage : 1 ≤ stage) :
    Resolving T (sp.into id kind) (t.modifySymbol v (Symbol.setSeen stage)) := by
  obtain ⟨w, o, hw, ho, rfl⟩ := hd
  obtain rfl : w = v := Option.some.inj ((lookup_declared h.seeing.replays hw).symm.trans hlook)
  have hkey : ∀ stage i, DeclaredBy { o with seen := stage } i ↔ i = o.node := fun stage i => eq_comm
  have hseeing := h.seeing.declare hT hw ho hstage hkey
  have hsp : (sp.into o.node kind).scope = sp.scope ∧ (sp.into o.node kind).around = sp.around ∧
      (sp.into o.node kind).next = sp.next ∧ (sp.into o.node kind).env = sp.env.declare x o.node := by
    simp [Spot.into, Env.within, hopens, hx]
  obtain ⟨hscope, haround, hnext, henv⟩ := hsp
  exact ⟨by rw [hscope, hnext, henv]; exact hseeing, by rw [hscope, haround]; exact h.above⟩

/-- A node with a scope of its own is entered: a function at the top, or a block or loop inside of one. -/
theorem Resolving.opened {name : Option String} (hT : Built T) (h : Resolving T sp t) (id : Nat)
    (hopens : opens sp.above kind.bare = true) (hat : OpensAt T sp kind.isDefinition)
    (hplace : kind.isDefinition = sp.env.locals.isEmpty) (hr : Runs (openScope kind.isDefinition name) t () t') :
    Resolving T (sp.into id kind) t' := by
  have habove : (T.scope sp.next).above = sp.scope :: (T.scope sp.scope).above := by rw [hat.above, h.above]
  have hseeing := h.seeing.opened hT hat.lt habove hat.isFunction hplace hr
  have hsp : (sp.into id kind).scope = sp.next ∧ (sp.into id kind).around = sp.scope :: sp.around ∧
      (sp.into id kind).next = sp.next + 1 ∧ (sp.into id kind).env = sp.env.opened := by
    simp [Spot.into, Env.within, hopens]
  obtain ⟨hscope, haround, hnext, henv⟩ := hsp
  exact ⟨by rw [hscope, hnext, henv]; exact hseeing, by rw [hscope, haround]; exact hat.above⟩

/-- A node with a scope of its own is left. -/
theorem Resolving.closed (o : Option ParseTree) (h0 : Resolving T sp t) {t1 : SymbolTable}
    (h : Resolving T ((sp.into id kind).pastAll cs) t1) (hopens : opens sp.above kind.bare = true)
    (hat : OpensAt T sp kind.isDefinition) (hr : Runs closeScope t1 () t') :
    Resolving T (sp.past (.mk id kind o cs)) t' := by
  have hsp : ((sp.into id kind).pastAll cs).scope = sp.next ∧ sp.next < ((sp.into id kind).pastAll cs).next := by
    simp [Spot.into, Spot.pastAll, hopens]
    omega
  have hdeeper : sp.env.opened.Deeper ((sp.into id kind).pastAll cs).env := by
    have := Env.deeper_pastAll sp.env.opened (kind.bare :: sp.above) (Node.bareAll cs)
    simpa [Spot.into, Spot.pastAll, Env.within, hopens] using this
  obtain ⟨hscope, hlt⟩ := hsp
  have hseeing := h.seeing
  rw [hscope] at hseeing
  have habove : (T.scope sp.next).above = sp.scope :: (T.scope sp.scope).above := by rw [hat.above, h0.above]
  rw [Spot.past_opened hopens]
  exact ⟨hseeing.closed (Nat.lt_trans h0.seeing.replays.scope_lt hlt) habove (hdeeper.globals rfl) hdeeper.tail hr, h0.above⟩

/-- What may stand outside of functions: it has no scopes in it. -/
def isFlat (k : Kind) : Bool := k.isInert || k.isDeclarator || k.isVariableDeclaration

theorem flat_children (hf : (Node.mk id kind o cs).formed = true) (h : isFlat kind = true) :
    ∀ c ∈ cs, isFlat c.kind = true := by
  by_cases hinert : kind.isInert = true
  · exact fun c hc => by simp [isFlat, (inert_children hf hinert).2 c hc]
  · intro c hc
    have hadmits : kind.admits (cs.map Node.kind) = true := (Bool.and_eq_true_iff.1 hf).1
    cases kind with
    | declarator head =>
      have := List.all_eq_true.1 (Bool.and_eq_true_iff.1 hadmits).2 c.kind (List.mem_map_of_mem hc)
      simp [isFlat, Kind.isInert, this]
    | variableDeclaration spec =>
      have := List.all_eq_true.1 hadmits c.kind (List.mem_map_of_mem hc)
      simp [isFlat, this]
    | _ => first | exact (hinert rfl).elim | cases h

theorem opens_flat {above : List Kind} {k : Kind} (h : isFlat k = true) : opens above k.bare = false := by
  cases k <;> first | rfl | cases h

/-! ## Statements -/

mutual

theorem resolve_visit (n : Node) (hf : n.formed = true) (hin : n.kind.isInner = true) (sp : Spot)
    (hplace : sp.env.locals.isEmpty = false ∨ isFlat n.kind = true) {above : List Node} {s s' : PassState} {n' : Node}
    (habove : above.map (·.kind.bare) = sp.above) (hT : Built T) (hn : Throughout (Settled T) sp n)
    (h : Resolving T sp s.table) (hq : Quiet (visit above n) s n' s') :
    Resolving T (sp.past n) s'.table ∧ Throughout (Resolved T) sp n' := by
  match n with
  | .mk id kind o cs =>
    have hbare := gives_visit _ _ _ _ _ hq.runs
    obtain ⟨hcs, hinner⟩ := formed_children hf hin
    obtain ⟨hsettled, hchildren⟩ := hn
    have hinto : (Node.mk id kind o cs :: above).map (·.kind.bare) = (sp.into id kind).above := above_into id kind o cs habove
    have hplaces : (sp.into id kind).env.locals.isEmpty = false ∨ ∀ c ∈ cs, isFlat c.kind = true := by
      obtain hin | hflat := hplace
      · left
        cases hopens : opens sp.above kind.bare with
        | true => simp [Spot.into, Env.within, hopens, Env.opened]
        | false => exact (Env.deeper_within hopens sp.env id).isEmpty.trans hin
      · exact .inr (flat_children hf hflat)
    by_cases hinert : kind.isInert = true
    · obtain ⟨htable, hlinked⟩ := resolve_inert _ hf hinert hT h hq
      rw [Spot.past_inert hf hinert, htable]
      have hinert' : n'.kind.isInert = true := by
        rw [← Kind.isInert_bare, ← Node.kind_bare, hbare, Node.kind_bare, Kind.isInert_bare]
        exact hinert
      exact ⟨h, throughout_inert hinert' ⟨hsettled.congr hbare, fun _ => hlinked⟩⟩
    · have hself : ∀ {kind' cs'}, (Node.mk id kind' o cs').bare = (Node.mk id kind o cs).bare →
          ThroughoutAll (Resolved T) (sp.into id kind) cs' → Throughout (Resolved T) sp (.mk id kind' o cs') := by
        intro kind' cs' hbare hcs'
        have hkind : kind'.bare = kind.bare := by injection hbare
        have hinert' : ¬ kind'.isInert = true := by rw [← Kind.isInert_bare, hkind, Kind.isInert_bare]; exact hinert
        refine ⟨⟨hsettled.congr hbare, fun hi => absurd hi hinert'⟩, fun _ => ?_⟩
        rw [Spot.into_congr hkind]
        exact hcs'
      have hbelow : (kind.isInert || kind.isParameter) = false := by
        cases kind <;> first | rfl | exact (hinert rfl).elim | cases hin
      have hplain : ∀ {cs' : List Node}, opens sp.above kind.bare = false → declares? sp.above kind.bare = none →
          Quiet (visitAll (.mk id kind o cs :: above) cs) s cs' s' →
            Resolving T (sp.past (.mk id kind o cs)) s'.table ∧ ThroughoutAll (Resolved T) (sp.into id kind) cs' := by
        intro cs' hopens hdeclares hq
        obtain ⟨h', hcs'⟩ := resolve_visitAll cs hcs hinner _ hplaces hinto hT (hchildren hbelow)
          (h.into_plain id hopens hdeclares) hq
        rw [Spot.past_closed hopens]
        exact ⟨h'.congr rfl rfl rfl rfl, hcs'⟩
      have hscoped : ∀ {cs' : List Node} {s1 : PassState} {t : SymbolTable}, opens sp.above kind.bare = true →
          kind.isDefinition = false → Runs (openScope false none) s.table () t →
          Quiet (visitAll (.mk id kind o cs :: above) cs) { s with table := t } cs' s1 →
          Runs closeScope s1.table () s'.table →
            Resolving T (sp.past (.mk id kind o cs)) s'.table ∧ ThroughoutAll (Resolved T) (sp.into id kind) cs' := by
        intro cs' s1 t hopens hdefinition hopen hq hclose
        have hlocals : sp.env.locals.isEmpty = false := by
          obtain hin | hflat := hplace
          · exact hin
          · have hflat : opens sp.above kind.bare = false := opens_flat hflat
            rw [hflat] at hopens
            cases hopens
        have hat := hsettled.opens hopens
        change OpensAt T sp kind.isDefinition at hat
        have hrun : Runs (openScope kind.isDefinition none) s.table () t := by rw [hdefinition]; exact hopen
        obtain ⟨h', hcs'⟩ := resolve_visitAll cs hcs hinner _ hplaces hinto hT (hchildren hbelow)
          (h.opened hT id hopens hat (hdefinition.trans hlocals.symm) hrun) hq
        exact ⟨h.closed o h' hopens hat hclose, hcs'⟩
      by_cases hkind : isPlain kind = true
      · obtain ⟨cs', rfl, hcs'⟩ := quiet_visit_plain hkind hq
        have hnone : opens sp.above kind.bare = false ∧ declares? sp.above kind.bare = none := by
          cases kind <;> first | exact ⟨rfl, rfl⟩ | cases hkind
        obtain ⟨h', hcs'⟩ := hplain hnone.1 hnone.2 hcs'
        exact ⟨h', hself hbare hcs'⟩
      · cases kind with
        | declarator head =>
          obtain ⟨x, hx⟩ : ∃ x, head.name = some x := by
            simp only [Node.formed, Kind.admits, Bool.and_eq_true] at hf
            exact Option.isSome_iff_exists.1 hf.1.1
          have hdeclares : declares? sp.above (Kind.declarator head).bare = some x := hx
          have hd := hsettled.declares x hdeclares
          obtain ⟨v, cs', s1, hlook, rfl, hcs', hs'⟩ := quiet_declarator hq
          rw [hx] at hlook
          have hinertCs : ∀ c ∈ cs, c.kind.isInert = true := by
            intro c hc
            have hadmits := (Bool.and_eq_true_iff.1 hf).1
            have := List.all_eq_true.1 (Bool.and_eq_true_iff.1 hadmits).2 c.kind (List.mem_map_of_mem hc)
            simp [Kind.isInert, this]
          have h1 : Resolving T (sp.into id (.declarator head)) (s.table.modifySymbol v (Symbol.setSeen 1)) :=
            h.declared hT rfl hdeclares hd hlook (Nat.le_refl 1)
          have h2 : Resolving T (sp.into id (.declarator head)) (s.table.modifySymbol v (Symbol.setSeen 2)) :=
            h.declared hT rfl hdeclares hd hlook (Nat.le_succ 1)
          obtain ⟨-, hresolved⟩ := resolve_visitAll cs hcs hinner _ hplaces hinto hT (hchildren hbelow) h1 hcs'
          -- the initialiser leaves the table as it is, so that the second stage follows the first at once
          obtain ⟨htable, -⟩ := resolve_inertAll cs hcs hinertCs hT h1 hcs'
          rw [htable, setSeen_setSeen] at hs'
          rw [hs', Spot.past_closed rfl, Spot.pastAll_inert hcs hinertCs]
          exact ⟨h2.congr rfl rfl rfl rfl, hself hbare hresolved⟩
        | statements =>
          have hstatements := opensScope_eq habove
          cases hopens : Fill.opensScope above with
          | true =>
            obtain ⟨t, cs', s1, rfl, hopen, hcs', hclose⟩ := quiet_block hopens hq
            obtain ⟨h', hcs'⟩ := hscoped (hstatements.symm.trans hopens) rfl hopen hcs' hclose
            exact ⟨h', hself hbare hcs'⟩
          | false =>
            obtain ⟨cs', rfl, hcs'⟩ := quiet_body hopens hq
            obtain ⟨h', hcs'⟩ := hplain (hstatements.symm.trans hopens) rfl hcs'
            exact ⟨h', hself hbare hcs'⟩
        | forLoop a b c =>
          obtain ⟨t, cs', s1, rfl, hopen, hcs', hclose⟩ := quiet_forLoop hq
          obtain ⟨h', hcs'⟩ := hscoped rfl rfl hopen hcs' hclose
          exact ⟨h', hself hbare hcs'⟩
        | _ => first | exact (hinert rfl).elim | exact (hkind rfl).elim | cases hin

theorem resolve_visitAll (ns : List Node) (hf : Node.formedAll ns = true) (hin : ∀ n ∈ ns, n.kind.isInner = true)
    (sp : Spot) (hplace : sp.env.locals.isEmpty = false ∨ ∀ n ∈ ns, isFlat n.kind = true) {above : List Node}
    {s s' : PassState} {ns' : List Node} (habove : above.map (·.kind.bare) = sp.above) (hT : Built T)
    (hns : ThroughoutAll (Settled T) sp ns) (h : Resolving T sp s.table)
    (hq : Quiet (visitAll above ns) s ns' s') :
    Resolving T (sp.pastAll ns) s'.table ∧ ThroughoutAll (Resolved T) sp ns' := by
  match ns with
  | [] =>
    obtain ⟨rfl, rfl⟩ := quiet_nil hq
    exact ⟨h, trivial⟩
  | n :: ns =>
    obtain ⟨hn, hns'⟩ : n.formed = true ∧ Node.formedAll ns = true := by simpa [Node.formedAll] using hf
    obtain ⟨m, ms, s1, rfl, hm, hms⟩ := visits.quiet_cons hq
    obtain ⟨h1, hm'⟩ := resolve_visit n hn (hin n List.mem_cons_self) sp
      (hplace.imp_right fun hflat => hflat n List.mem_cons_self) habove hT hns.1 h hm
    have hplace' : (sp.past n).env.locals.isEmpty = false ∨ ∀ m ∈ ns, isFlat m.kind = true :=
      hplace.imp (fun hin => (Env.deeper_past sp.env sp.above n.bare).isEmpty.trans hin) fun hflat m hm =>
        hflat m (List.mem_cons_of_mem n hm)
    obtain ⟨h2, hms'⟩ := resolve_visitAll ns hns' (fun m hm => hin m (List.mem_cons_of_mem n hm)) (sp.past n) hplace' habove
      hT hns.2 h1 hms
    rw [Spot.pastAll_cons]
    refine ⟨h2, hm', ?_⟩
    rw [Spot.past_congr (gives_visit _ _ _ _ _ hm.runs)]
    exact hms'

end

/-! ## Functions -/

theorem resolve_parameter {head : ParameterHead} (hf : (Node.mk id (.parameter head) o cs).formed = true)
    (habove : above.map (·.kind.bare) = sp.above) (hT : Built T) (hn : Settled T sp (.mk id (.parameter head) o cs))
    (h : Resolving T sp s.table) (hq : Quiet (visit above (.mk id (.parameter head) o cs)) s n' s') :
    Resolving T (sp.past (.mk id (.parameter head) o cs)) s'.table ∧ Throughout (Resolved T) sp n' := by
  obtain ⟨hbrackets, hcs⟩ : cs.all (·.kind.isArrayPart) = true ∧ Node.formedAll cs = true := by
    simpa [Node.formed, Kind.admits, Function.comp_def] using hf
  have hinert : ∀ c ∈ cs, c.kind.isInert = true := fun c hc => by
    simp [Kind.isInert, Kind.isDeclared, List.all_eq_true.1 hbrackets c hc]
  have hdecl := any_above_bare Kind.isDeclaration Kind.isDeclaration_bare habove 1
  have hresolved : Throughout (Resolved T) sp (.mk id (.parameter head) o cs) :=
    ⟨⟨hn, fun hi => by cases hi⟩, fun hk => by cases hk⟩
  have hdone : ∀ {t}, Resolving T (sp.into id (.parameter head)) t → Resolving T (sp.past (.mk id (.parameter head) o cs)) t := by
    intro t ht
    rw [Spot.past_closed rfl, Spot.pastAll_inert hcs hinert]
    exact ht.congr rfl rfl rfl rfl
  cases hdeclaration : above[1]?.any (·.kind.isDeclaration) with
  | true =>
    obtain ⟨rfl, rfl⟩ := quiet_unnamed (.inl hdeclaration) hq
    exact ⟨hdone (h.into_plain id rfl (by simp [Kind.bare, declares?, hdecl, hdeclaration])), hresolved⟩
  | false =>
    cases hname : head.name with
    | none =>
      obtain ⟨rfl, rfl⟩ := quiet_unnamed (.inr hname) hq
      exact ⟨hdone (h.into_plain id rfl (by simp [Kind.bare, declares?, hname])), hresolved⟩
    | some x =>
      have hdeclares : declares? sp.above (Kind.parameter head).bare = some x := by
        simp [Kind.bare, declares?, hdecl, hdeclaration, hname]
      obtain ⟨v, hlook, rfl, hs'⟩ := quiet_parameter hdeclaration (by rw [hname]; rfl) hq
      rw [hname] at hlook
      rw [hs']
      exact ⟨hdone (h.declared hT rfl hdeclares (hn.declares x hdeclares) hlook (Nat.le_succ 1)), hresolved⟩

theorem resolve_parameterList (ds : List Node) (hf : Node.formedAll ds = true)
    (hall : ∀ d ∈ ds, d.kind.isParameter = true) (sp : Spot) {ds' : List Node}
    (habove : above.map (·.kind.bare) = sp.above) (hT : Built T) (hds : ThroughoutAll (Settled T) sp ds)
    (h : Resolving T sp s.table) (hq : Quiet (visitAll above ds) s ds' s') :
    Resolving T (sp.pastAll ds) s'.table ∧ ThroughoutAll (Resolved T) sp ds' := by
  induction ds generalizing sp s ds' with
  | nil =>
    obtain ⟨rfl, rfl⟩ := quiet_nil hq
    exact ⟨h, trivial⟩
  | cons d ds ih =>
    obtain ⟨hd, hfs⟩ := Bool.and_eq_true_iff.1 hf
    obtain ⟨m, ms, s1, rfl, hm, hms⟩ := visits.quiet_cons hq
    have hbare := gives_visit _ _ _ _ _ hm.runs
    have hkind := hall d List.mem_cons_self
    obtain ⟨h1, hm'⟩ : Resolving T (sp.past d) s1.table ∧ Throughout (Resolved T) sp m := by
      obtain ⟨i, kind, o, cs⟩ := d
      cases kind with
      | parameter head => exact resolve_parameter hd habove hT hds.1.1 h hm
      | _ => cases hkind
    obtain ⟨h2, hms'⟩ := ih hfs (fun m hm => hall m (List.mem_cons_of_mem d hm)) (sp.past d) habove hds.2 h1 hms
    rw [Spot.pastAll_cons]
    refine ⟨h2, hm', ?_⟩
    rw [Spot.past_congr hbare]
    exact hms'

theorem resolve_parameters (hf : (Node.mk id .parameters o cs).formed = true)
    (habove : above.map (·.kind.bare) = sp.above) (hT : Built T)
    (hn : Throughout (Settled T) sp (.mk id .parameters o cs)) (h : Resolving T sp s.table)
    (hq : Quiet (visit above (.mk id .parameters o cs)) s n' s') :
    Resolving T (sp.past (.mk id .parameters o cs)) s'.table ∧ Throughout (Resolved T) sp n' := by
  obtain ⟨hall, hcs⟩ : (∀ c ∈ cs, c.kind.isParameter = true) ∧ Node.formedAll cs = true := by
    simpa [Node.formed, Kind.admits] using hf
  obtain ⟨cs', rfl, hcs'⟩ := quiet_visit_plain rfl hq
  obtain ⟨h', hresolved⟩ := resolve_parameterList cs hcs hall _ (above_into id .parameters o cs habove) hT (hn.2 rfl)
    (h.into_plain id rfl rfl) hcs'
  rw [Spot.past_closed rfl]
  exact ⟨h'.congr rfl rfl rfl rfl, ⟨⟨hn.1.declares, hn.1.opens⟩, fun hi => by cases hi⟩, fun _ => hresolved⟩

theorem resolve_functionChildren {head : FunctionHead} {cs' : List Node}
    (hf : (Node.mk id (.function head) o cs).formed = true) (habove : above.map (·.kind.bare) = sp.above) (hT : Built T)
    (hlocals : head.form.isDefinition = true → (sp.into id (.function head)).env.locals.isEmpty = false)
    (hn : ThroughoutAll (Settled T) (sp.into id (.function head)) cs)
    (h : Resolving T (sp.into id (.function head)) s.table)
    (hq : Quiet (visitAll (.mk id (.function head) o cs :: above) cs) s cs' s') :
    Resolving T ((sp.into id (.function head)).pastAll cs) s'.table ∧
      ThroughoutAll (Resolved T) (sp.into id (.function head)) cs' := by
  have habove' := above_into id (.function head) o cs habove
  obtain ⟨-, ip, op, ps, hp, ⟨-, rfl⟩ | ⟨ib, ob, bs, hb, hform, rfl⟩⟩ := function_children hf
  · obtain ⟨m, rfl, hm⟩ := visits.quiet_one hq
    obtain ⟨h', hm'⟩ := resolve_parameters hp habove' hT hn.1 h hm
    exact ⟨h', hm', trivial⟩
  · obtain ⟨m, ms, s1, rfl, hm, hms⟩ := visits.quiet_cons hq
    obtain ⟨m', rfl, hm'⟩ := visits.quiet_one hms
    obtain ⟨h1, hresolved⟩ := resolve_parameters hp habove' hT hn.1 h hm
    have hinside := (Env.deeper_past (sp.into id (.function head)).env (sp.into id (.function head)).above
      (Node.mk ip .parameters op ps).bare).isEmpty.trans (hlocals hform)
    obtain ⟨h2, hresolved'⟩ := resolve_visit _ hb rfl ((sp.into id (.function head)).past (.mk ip .parameters op ps))
      (.inl hinside) habove' hT hn.2.1 h1 hm'
    rw [Spot.pastAll_cons, Spot.pastAll_cons, Spot.pastAll_nil]
    refine ⟨h2, hresolved, ?_, trivial⟩
    rw [Spot.past_congr (gives_visit _ _ _ _ _ hm.runs)]
    exact hresolved'

theorem resolve_function {head : FunctionHead} (hf : (Node.mk id (.function head) o cs).formed = true)
    (habove : above.map (·.kind.bare) = sp.above) (hT : Built T) (hroot : sp.env.locals = [])
    (hn : Throughout (Settled T) sp (.mk id (.function head) o cs)) (h : Resolving T sp s.table)
    (hq : Quiet (visit above (.mk id (.function head) o cs)) s n' s') :
    Resolving T (sp.past (.mk id (.function head) o cs)) s'.table ∧ Throughout (Resolved T) sp n' := by
  have hself : ∀ {cs'}, ThroughoutAll (Resolved T) (sp.into id (.function head)) cs' →
      Throughout (Resolved T) sp (.mk id (.function head) o cs') := fun hcs' =>
    ⟨⟨⟨hn.1.declares, hn.1.opens⟩, fun hi => by cases hi⟩, fun _ => hcs'⟩
  cases hform : head.form.isDefinition with
  | true =>
    obtain ⟨t, cs', s1, rfl, hopen, hcs', hclose⟩ := quiet_function hform hq
    have hopens : opens sp.above (Kind.function head).bare = true := hform
    have hdefinition : (Kind.function head).isDefinition = true := hform
    have hat : OpensAt T sp (Kind.function head).isDefinition := hn.1.opens hopens
    have h1 := h.opened hT id hopens hat (by rw [hroot]; exact hdefinition) (by rw [hdefinition]; exact hopen)
    obtain ⟨h2, hresolved⟩ := resolve_functionChildren hf habove hT
      (fun _ => by simp [Spot.into, Env.within, hopens, Env.opened]) (hn.2 rfl) h1 hcs'
    exact ⟨h.closed o h2 hopens hat hclose, hself hresolved⟩
  | false =>
    obtain ⟨cs', rfl, hcs'⟩ := quiet_declaration hform hq
    have hopens : opens sp.above (Kind.function head).bare = false := hform
    obtain ⟨h1, hresolved⟩ := resolve_functionChildren hf habove hT (fun h => by rw [hform] at h; cases h) (hn.2 rfl)
      (h.into_plain id hopens rfl) hcs'
    rw [Spot.past_closed hopens]
    exact ⟨h1.congr rfl rfl rfl rfl, hself hresolved⟩

end MiniC.Lexical
