import MiniC.Proofs.Pass.Quiet
import MiniC.Proofs.Pass.Trees
import MiniC.Proofs.Scope.Growth
import MiniC.Proofs.Scope.Lexical

/-!
# Filling the table

If the first pass finds no errors, the table has the scopes that the lexical rules tell, numbered in their order, and
each name in the scope where it is declared. `Settled T` says this of one node, where `T` is any later table: a
variable keeps its place once it has one.
-/

namespace MiniC.Lexical

open Fill
open Kind (admits bare fits)
open Symbol (isDefinite)
open Node (formed_child formedAll formed)

variable {id : Nat} {kind : Kind} {cs cs' : List Node} {o : Option ParseTree} {head : FunctionHead}

open SymbolTable

variable {t t' T : SymbolTable} {sp sp' : Spot} {s s' : PassState} {n n' : Node} {above ns ns' : List Node} {x : String}

/-! ## What is entered -/

/-- A name in a scope stands for the variable that a node declares. -/
def Declares (T : SymbolTable) (i : Nat) (x : String) (id : Nat) : Prop :=
  ∃ v o, T.named? i (some x) = some v ∧ T.symbol v = .object o ∧ o.node = id

structure OpensAt (T : SymbolTable) (sp : Spot) (isFunction : Bool) : Prop where
  lt : sp.next < T.scopes.size
  above : (T.scope sp.next).above = sp.scope :: sp.around
  isFunction : (T.scope sp.next).isFunction = isFunction

/-- What the first pass makes true of a node. -/
structure Settled (T : SymbolTable) (sp : Spot) (n : Node) : Prop where
  declares : ∀ x, declares? sp.above n.kind.bare = some x → Declares T sp.scope x n.id
  opens : opens sp.above n.kind.bare = true → OpensAt T sp n.kind.isDefinition

/-- The table while the pass is at a place. -/
structure Filling (sp : Spot) (t : SymbolTable) : Prop where
  built : Built t
  replaying : t.replaying = false
  current : t.current = some sp.scope
  above : (t.scope sp.scope).above = sp.around
  scopes : t.scopes.size = sp.next
  lt : sp.scope < sp.next

/-- A pass goes on from a table to a place behind it, and makes something true of every later table. -/
structure Fills (t : SymbolTable) (sp' : Spot) (P : SymbolTable → Prop) (t' : SymbolTable) : Prop where
  filling : Filling sp' t'
  later : Extends isDefinite t t'
  settled : ∀ T, Extends isDefinite t' T → P T

theorem Declares.extends {i : Nat} (h : Declares t i x id) (he : Extends isDefinite t T) :
    Declares T i x id := by
  obtain ⟨v, o, hv, ho, hid⟩ := h
  obtain ⟨hv', hsymbol⟩ := he.named_eq _ _ _ hv (by rw [ho]; rfl)
  exact ⟨v, o, hv', hsymbol.trans ho, hid⟩

theorem settled_inert (h : n.kind.isInert = true) : Settled T sp n := by
  have hbare : n.kind.bare.isInert = true := by simpa using h
  refine ⟨fun x hx => ?_, fun ho => ?_⟩
  · cases hk : n.kind.bare <;> rw [hk] at hbare hx <;> first | cases hx | cases hbare
  · rw [opens_inert hbare] at ho
    cases ho

theorem throughout_inert {P : Spot → Node → Prop} (h : n.kind.isInert = true) (hP : P sp n) : Throughout P sp n := by
  obtain ⟨id, kind, o, cs⟩ := n
  have h : kind.isInert = true := h
  exact ⟨hP, fun hk => by simp [h] at hk⟩

/-! ## Steps -/

theorem Filling.congr (h : Filling sp t) (hscope : sp'.scope = sp.scope) (haround : sp'.around = sp.around)
    (hnext : sp'.next = sp.next) : Filling sp' t :=
  ⟨h.built, h.replaying, by rw [hscope, h.current], by rw [hscope, haround, h.above], by rw [hnext, h.scopes],
    by rw [hscope, hnext]; exact h.lt⟩

theorem Filling.scope_lt (h : Filling sp t) : sp.scope < t.scopes.size := h.scopes ▸ h.lt

theorem Filling.enters {frame : Nat} {size : Int} {y : Symbol} (h : Filling sp t) (he : Enters t sp.scope frame size y t')
    (hfun : ∀ f, y = .function f → sp.scope = 0 ∧ f.seen = none) (hobj : ∀ o, y = .object o → o.seen = 0) :
    Filling sp t' where
  built := he.built h.built hfun hobj
  replaying := by rw [he.replaying, h.replaying]
  current := by rw [he.current, h.current]
  above := by rw [he.above, h.above]
  scopes := by rw [he.scopes, h.scopes]
  lt := h.lt

/-- A node with a scope of its own is entered. -/
theorem Filling.opened (h : Filling sp t) (id : Nat) (name : Option String) (hopens : opens sp.above kind.bare = true) :
    Filling (sp.into id kind) (t.made sp.scope kind.isDefinition name) := by
  have hscope := h.scope_lt
  have hnew : (sp.into id kind).scope = sp.next := by simp [Spot.into, hopens]
  have haround : (sp.into id kind).around = sp.scope :: sp.around := by simp [Spot.into, hopens]
  have hnext : (sp.into id kind).next = sp.next + 1 := by simp [Spot.into, hopens]
  constructor
  case built => exact built_made h.built hscope
  case replaying => exact h.replaying
  case current => rw [hnew, ← h.scopes]; rfl
  case above => rw [hnew, haround, above_made hscope, if_pos h.scopes.symm, h.above]
  case scopes => rw [hnext, size_made, h.scopes]
  case lt => rw [hnew, hnext]; exact Nat.lt_succ_self _

/-- A node with a scope of its own is left. -/
theorem Filling.closed (o : Option ParseTree) {name : Option String} (h : Filling sp t)
    (hopens : opens sp.above kind.bare = true)
    (hf : Fills (t.made sp.scope kind.isDefinition name) ((sp.into id kind).pastAll cs)
      (fun T => ThroughoutAll (Settled T) (sp.into id kind) cs') t') :
    Fills t (sp.past (.mk id kind o cs))
      (fun T => OpensAt T sp kind.isDefinition ∧ ThroughoutAll (Settled T) (sp.into id kind) cs')
      (t'.shut ((sp.into id kind).pastAll cs).scope) := by
  have hscope := h.scope_lt
  have hinner : ((sp.into id kind).pastAll cs).scope = sp.next := by simp [Spot.pastAll, Spot.into, hopens]
  have haround : ((sp.into id kind).pastAll cs).around = sp.scope :: sp.around := by
    simp [Spot.pastAll, Spot.into, hopens]
  have hmade : Extends isDefinite t (t.made sp.scope kind.isDefinition name) :=
    (show Grown 0 _ _ from grown_made hscope).toExtends
  have hshut : Extends isDefinite t' (t'.shut ((sp.into id kind).pastAll cs).scope) :=
    (show Grown 0 _ _ from grown_shut t' _).toExtends
  have hopensAt : ∀ T, Extends isDefinite t' T → OpensAt T sp kind.isDefinition := by
    intro T hT
    have he := hf.later.trans hT
    have hlt : sp.next < (t.made sp.scope kind.isDefinition name).scopes.size := by rw [size_made, h.scopes]; omega
    constructor
    case lt => exact Nat.lt_of_lt_of_le hlt he.scopes_le
    case above => rw [he.above_eq _ hlt, above_made hscope, if_pos h.scopes.symm, h.above]
    case isFunction => rw [he.isFunction_eq _ hlt, scope_made hscope, if_pos h.scopes.symm]
  rw [Spot.past_opened hopens]
  refine ⟨?_, (hmade.trans hf.later).trans hshut, fun T hT =>
    ⟨hopensAt T (hshut.trans hT), hf.settled T (hshut.trans hT)⟩⟩
  have hle : t.scopes.size < t'.scopes.size := by
    have := hf.later.scopes_le
    rw [size_made] at this
    omega
  constructor
  case built => exact built_shut hf.filling.built _
  case replaying => exact hf.filling.replaying
  case current =>
    have := hf.filling.above
    simp [shut, this, haround]
  case above =>
    have := (hmade.trans hf.later).above_eq sp.scope hscope
    exact this.trans h.above
  case scopes => exact hf.filling.scopes
  case lt =>
    have := hf.filling.scopes
    have := h.lt
    have := h.scopes
    simp only
    omega

/-! ## Declarations -/

theorem fill_object {type : CType} {byDeclarator : Bool} {w : Option Nat} (hf : Filling sp s.table)
    (hq : Quiet (enterObject n above (some x) type byDeclarator) s (w, false) s') :
    Fills s.table sp (fun T => Declares T sp.scope x n.id) s'.table := by
  obtain ⟨position, s1, hpos, hdecl⟩ := hq.bind
  obtain ⟨-, rfl⟩ := runs_pass_lift.1 hpos.runs
  obtain ⟨hnew, v, hr, hrun⟩ := quiet_declare hf.current rfl (fun v _ => conflict_object _ _) hdecl
  obtain ⟨rfl, -⟩ := Prod.mk.inj hr
  obtain ⟨t, ht, rfl⟩ := runs_onTable.1 hrun
  obtain ⟨rfl, size, -, he⟩ := runs_insertObject hf.current hf.scope_lt (hf.built.frameOf_lt hf.scope_lt) ht
  have hext : Extends isDefinite s1.table t := he.extends hf.built fun v hv => by
    rw [Symbol.name, hnew] at hv
    cases hv
  refine ⟨hf.enters he (fun f h => by cases h) (fun o h => by cases h; rfl), hext, fun T hT =>
    Declares.extends ?_ hT⟩
  exact ⟨_, _, (he.named? _ _).trans (if_pos ⟨rfl, rfl⟩), (he.symbol_eq _).trans (if_pos rfl), rfl⟩

/-! ## Expressions -/

theorem fill_string {raw : String} {codes : List Nat} {node : Nat} {type : CType} (h : Filling sp t)
    (hr : Runs (insertString raw codes node type) t () t') : Filling sp t' ∧ Extends isDefinite t t' := by
  cases hfind : t.findString (raw.toList.map Char.toNat) with
  | some v =>
    have hr := runs_get_bind.1 hr
    simp only [hfind, runs_pure] at hr
    obtain rfl := hr.2
    exact ⟨h, .refl _ _⟩
  | none =>
    obtain ⟨size, -, rfl⟩ := (runs_insertString hfind).1 hr
    refine ⟨⟨built_withString h.built, h.replaying, h.current, ?_, ?_, h.lt⟩, extends_withString h.built⟩
    · rw [scope_withString_cells h.built.root_lt]
      exact h.above
    · exact (size_modifyScope ..).trans h.scopes

theorem fill_each (hstep : ∀ n ∈ ns, ∀ s n' s', Filling sp s.table → Quiet (visit above n) s n' s' →
      Filling sp s'.table ∧ Extends isDefinite s.table s'.table) (h : Filling sp s.table)
    (hq : Quiet (visitAll above ns) s ns' s') :
    Filling sp s'.table ∧ Extends isDefinite s.table s'.table := by
  induction ns generalizing s ns' with
  | nil =>
    obtain ⟨-, rfl⟩ := quiet_nil hq
    exact ⟨h, .refl _ _⟩
  | cons n ns ih =>
    obtain ⟨hn, hns⟩ := List.forall_mem_cons.1 hstep
    obtain ⟨m, ms, s1, -, hm, hms⟩ := visits.quiet_cons hq
    obtain ⟨h1, he1⟩ := hn _ _ _ h hm
    obtain ⟨h2, he2⟩ := ih hns h1 hms
    exact ⟨h2, he1.trans he2⟩

/-- Where nothing is declared the pass only keeps the texts of strings. -/
theorem fill_inert (n : Node) (hf : n.formed = true) (hi : n.kind.isInert = true) (h : Filling sp s.table)
    (hq : Quiet (visit above n) s n' s') : Filling sp s'.table ∧ Extends isDefinite s.table s'.table := by
  induction n using Node.induct generalizing above s n' s' with
  | h id kind o cs ih =>
    by_cases hplain : isPlain kind = true
    · obtain ⟨cs', -, hq⟩ := quiet_visit_plain hplain hq
      exact fill_each (fun c hc _ _ _ => ih c hc (formed_child hf hc) ((inert_children hf hi).2 c hc)) h hq
    · rw [visit] at hq
      have hq := hq.unmarked
      cases kind with
      | string raw codes =>
        obtain ⟨type, -, hr⟩ := runs_pass_lift_bind.1 hq.runs
        obtain ⟨_, s1, hins, hlast⟩ := runs_bind.1 hr
        obtain ⟨-, rfl⟩ := runs_pure.1 hlast
        obtain ⟨t', ht', rfl⟩ := runs_onTable.1 hins
        exact fill_string h ht'
      | cast spec layers =>
        obtain ⟨s1, hs1, hq⟩ := Quiet.warned hq
        obtain ⟨-, rfl⟩ := runs_pure.1 hq.runs
        rw [hs1]
        exact ⟨h, .refl _ _⟩
      | _ => first | exact (hplain rfl).elim | cases hi

/-! ## Statements -/

theorem Fills.weaken {P Q : SymbolTable → Prop} (h : Fills t sp P t') (hPQ : ∀ T, P T → Q T) : Fills t sp Q t' :=
  ⟨h.filling, h.later, fun T hT => hPQ T (h.settled T hT)⟩

/-- Two steps one after the other. -/
theorem Fills.trans {P Q : SymbolTable → Prop} {t1 : SymbolTable} (h : Fills t sp P t1) (h' : Fills t1 sp' Q t') :
    Fills t sp' (fun T => P T ∧ Q T) t' :=
  ⟨h'.filling, h.later.trans h'.later, fun T hT => ⟨h.settled T (h'.later.trans hT), h'.settled T hT⟩⟩

/-- A node without a scope of its own, after its children. -/
theorem Fills.node {kind' : Kind}
    (h : Fills t ((sp.into id kind).pastAll cs) (fun T => (∀ x, declares? sp.above kind.bare = some x →
      Declares T sp.scope x id) ∧ ThroughoutAll (Settled T) (sp.into id kind) cs') t') (hbare : kind'.bare = kind.bare)
    (hopens : opens sp.above kind.bare = false) :
    Fills t (sp.past (.mk id kind o cs)) (fun T => Throughout (Settled T) sp (.mk id kind' o cs')) t' := by
  refine ⟨h.filling.congr ?_ ?_ ?_, h.later, fun T hT => ?_⟩
  iterate 3 rw [Spot.past_closed hopens]
  obtain ⟨hdeclares, hcs⟩ := h.settled T hT
  refine ⟨⟨fun x hx => hdeclares x ?_, fun ho => ?_⟩, fun _ => ?_⟩
  · rw [← hbare]; exact hx
  · change opens sp.above kind'.bare = true at ho
    rw [hbare, hopens] at ho
    cases ho
  · rw [Spot.into_congr hbare]
    exact hcs

theorem Filling.into_closed (h : Filling sp t) (id : Nat) (hopens : opens sp.above kind.bare = false) :
    Filling (sp.into id kind) t := h.congr (by simp [Spot.into, hopens]) (by simp [Spot.into, hopens])
  (by simp [Spot.into, hopens])

theorem opensScope_eq {above : List Kind} {nodes : List Node} (h : nodes.map (·.kind.bare) = above) :
    opensScope nodes = opens above .statements := by
  subst h
  cases nodes with
  | nil => rfl
  | cons n ns =>
    change (!(n.kind.isDefinition || n.kind.isFor)) = !(n.kind.bare.isDefinition || n.kind.bare.isFor)
    rw [Kind.isDefinition_bare, Kind.isFor_bare]

theorem above_into (id : Nat) (kind : Kind) (o : Option ParseTree) (cs : List Node)
    (h : above.map (·.kind.bare) = sp.above) :
    (Node.mk id kind o cs :: above).map (·.kind.bare) = (sp.into id kind).above := by
  rw [List.map_cons, h]
  rfl

theorem formed_children (hf : (Node.mk id kind o cs).formed = true) (hin : kind.isInner = true) :
    formedAll cs = true ∧ ∀ c ∈ cs, c.kind.isInner = true := by
  obtain ⟨hadmits, hcs⟩ := Bool.and_eq_true_iff.1 hf
  exact ⟨hcs, fun c hc => Kind.inner_of_admits hin hadmits c.kind (List.mem_map_of_mem hc)⟩

/-- Nodes one after the other, if it is known what happens at each of them. -/
theorem fill_all (sp : Spot) (habove : above.map (·.kind.bare) = sp.above) (hstep : ∀ n ∈ ns, ∀ sp : Spot,
      above.map (·.kind.bare) = sp.above → ∀ s n' s', Filling sp s.table → Quiet (visit above n) s n' s' →
        Fills s.table (sp.past n) (fun T => Throughout (Settled T) sp n') s'.table)
    (h : Filling sp s.table) (hq : Quiet (visitAll above ns) s ns' s') :
    Fills s.table (sp.pastAll ns) (fun T => ThroughoutAll (Settled T) sp ns') s'.table := by
  induction ns generalizing sp s ns' with
  | nil =>
    obtain ⟨rfl, rfl⟩ := quiet_nil hq
    exact ⟨h, .refl _ _, fun _ _ => trivial⟩
  | cons n ns ih =>
    obtain ⟨hn, hns⟩ := List.forall_mem_cons.1 hstep
    obtain ⟨m, ms, s1, rfl, hm, hms⟩ := visits.quiet_cons hq
    have h1 := hn sp habove _ _ _ h hm
    have h2 := ih (sp.past n) habove hns h1.filling hms
    rw [Spot.pastAll_cons]
    refine (h1.trans h2).weaken fun T ⟨hm', hms'⟩ => ⟨hm', ?_⟩
    rw [Spot.past_congr (gives_visit _ _ _ _ _ hm.runs)]
    exact hms'

theorem fill_visit (n : Node) (hf : n.formed = true) (hin : n.kind.isInner = true) (sp : Spot)
    (habove : above.map (·.kind.bare) = sp.above) (h : Filling sp s.table) (hq : Quiet (visit above n) s n' s') :
    Fills s.table (sp.past n) (fun T => Throughout (Settled T) sp n') s'.table := by
  induction n using Node.induct generalizing sp above s n' s' with
  | h id kind o cs ih =>
    obtain ⟨-, hinner⟩ := formed_children hf hin
    have hinto : (Node.mk id kind o cs :: above).map (·.kind.bare) = (sp.into id kind).above := above_into id kind o cs habove
    have hcs : ∀ {s s' : PassState} {cs' : List Node}, Filling (sp.into id kind) s.table →
        Quiet (visitAll (.mk id kind o cs :: above) cs) s cs' s' → Fills s.table ((sp.into id kind).pastAll cs)
          (fun T => ThroughoutAll (Settled T) (sp.into id kind) cs') s'.table :=
      fill_all _ hinto fun c hc sp hsp _ _ _ => ih c hc (formed_child hf hc) (hinner c hc) sp hsp
    have hclosed : ∀ {cs' : List Node} {s s' : PassState} {P : SymbolTable → Prop} {t : SymbolTable},
        opens sp.above kind.bare = false → Fills t sp P s.table →
        (∀ T, P T → ∀ x, declares? sp.above kind.bare = some x → Declares T sp.scope x id) →
        Quiet (visitAll (.mk id kind o cs :: above) cs) s cs' s' → ∀ kind', kind'.bare = kind.bare →
          Fills t (sp.past (.mk id kind o cs)) (fun T => Throughout (Settled T) sp (.mk id kind' o cs')) s'.table := by
      intro cs' s s' P t hopens h0 hdeclares hq kind' hbare
      have := h0.trans (hcs (h0.filling.into_closed id hopens) hq)
      exact (this.weaken fun T ⟨hP, hcs⟩ => ⟨hdeclares T hP, hcs⟩).node hbare hopens
    have hopened : ∀ {cs' : List Node} {s1 : PassState} {name : Option String}, opens sp.above kind.bare = true →
        declares? sp.above kind.bare = none →
        Quiet (visitAll (.mk id kind o cs :: above) cs)
          { s with table := s.table.made sp.scope kind.isDefinition name } cs' s1 →
        (∀ e, s1.table.current = some e → s'.table = s1.table.shut e) →
          Fills s.table (sp.past (.mk id kind o cs)) (fun T => Throughout (Settled T) sp (.mk id kind o cs')) s'.table := by
      intro cs' s1 name hopens hdeclares hq hshut
      have hfills := hcs (h.opened id _ hopens) hq
      rw [hshut _ hfills.filling.current]
      refine (h.closed o hopens hfills).weaken fun T ⟨hat, hcs⟩ => ⟨⟨fun x hx => ?_, fun _ => hat⟩, fun _ => hcs⟩
      change declares? sp.above kind.bare = some x at hx
      rw [hdeclares] at hx
      cases hx
    have hleaf : cs = [] → opens sp.above kind.bare = false → declares? sp.above kind.bare = none →
        Fills s.table (sp.past (.mk id kind o cs)) (fun T => Throughout (Settled T) sp (.mk id kind o cs)) s.table := by
      rintro rfl hopens hdeclares
      refine Fills.node ⟨h.into_closed id hopens, .refl _ _, fun _ _ => ⟨fun x hx => ?_, trivial⟩⟩ rfl hopens
      rw [hdeclares] at hx
      cases hx
    have hstay : Fills s.table sp (fun _ => True) s.table := ⟨h, .refl _ _, fun _ _ => trivial⟩
    by_cases hinert : kind.isInert = true
    · obtain ⟨h', he⟩ := fill_inert _ hf hinert h hq
      have hkind : n'.kind.bare = kind.bare := by
        rw [← Node.kind_bare, gives_visit _ _ _ _ _ hq.runs, Node.kind_bare]
        rfl
      have hinert' : n'.kind.isInert = true := by rw [← Kind.isInert_bare, hkind, Kind.isInert_bare, hinert]
      rw [Spot.past_inert hf hinert]
      exact ⟨h', he, fun T _ => throughout_inert hinert' (settled_inert hinert')⟩
    · by_cases hplain : isPlain kind = true
      · obtain ⟨cs', rfl, hcs'⟩ := quiet_visit_plain hplain hq
        have hnone : opens sp.above kind.bare = false ∧ declares? sp.above kind.bare = none := by
          cases kind <;> first | exact ⟨rfl, rfl⟩ | cases hplain
        exact hclosed hnone.1 hstay (fun T _ x hx => by rw [hnone.2] at hx; cases hx) hcs' kind rfl
      · cases kind with
        | breakStmt =>
          obtain ⟨rfl, rfl, -⟩ := quiet_jump (.inl rfl) hq
          exact hleaf (by simp [formed, admits] at hf; exact hf.1) rfl rfl
        | continueStmt =>
          obtain ⟨rfl, rfl, -⟩ := quiet_jump (.inr rfl) hq
          exact hleaf (by simp [formed, admits] at hf; exact hf.1) rfl rfl
        | declarator head =>
          obtain ⟨x, hx⟩ : ∃ x, head.name = some x := by
            simp only [formed, admits, Bool.and_eq_true] at hf
            exact Option.isSome_iff_exists.1 hf.1.1
          obtain ⟨s1, type, -, hs1, hq⟩ := quiet_declarator hq
          obtain ⟨w, s2, cs', henter, rfl, hcs'⟩ := quiet_entering hq
          rw [hx] at henter
          have hfills := fill_object (hs1 ▸ h) henter
          rw [hs1] at hfills
          refine hclosed rfl hfills (fun T hT y hy => ?_) hcs' (.declarator { head with symbol := w }) rfl
          obtain rfl : x = y := Option.some.inj (hx.symm.trans hy)
          exact hT
        | statements =>
          have hstatements := opensScope_eq habove
          cases hopens : opensScope above with
          | true =>
            obtain ⟨cs', s1, rfl, hcs', hshut⟩ := quiet_block hopens h.replaying h.current hq
            exact hopened (hstatements.symm.trans hopens) rfl hcs' hshut
          | false =>
            obtain ⟨cs', rfl, hcs'⟩ := quiet_body hopens hq
            exact hclosed (hstatements.symm.trans hopens) hstay (fun T _ x hx => by cases hx) hcs' .statements rfl
        | forLoop a b c =>
          obtain ⟨cs', s1, rfl, hcs', hshut⟩ := quiet_forLoop h.replaying h.current hq
          exact hopened rfl rfl hcs' hshut
        | _ => first | exact (hinert rfl).elim | exact (hplain rfl).elim | cases hin

/-! ## Functions -/

theorem decay_name (head : ParameterHead) : (decay head).name = head.name := by
  unfold decay
  split <;> rfl

theorem any_above_bare (p : Kind → Bool) (hp : ∀ k : Kind, p k.bare = p k) (habove : above.map (·.kind.bare) = sp.above)
    (i : Nat) : sp.above[i]?.any p = above[i]?.any (p ·.kind) := by
  rw [← habove, List.getElem?_map]
  cases above[i]? <;> simp [hp]

/-- The parameters of a function with a body are declared in its scope. -/
theorem fill_parameter {head : ParameterHead} (hf : (Node.mk id (.parameter head) o cs).formed = true)
    (habove : above.map (·.kind.bare) = sp.above)
    (hfun : above[1]?.any (·.kind.isDefinition) = !above[1]?.any (·.kind.isDeclaration)) (h : Filling sp s.table)
    (hq : Quiet (visit above (.mk id (.parameter head) o cs)) s n' s') :
    Fills s.table (sp.past (.mk id (.parameter head) o cs)) (fun T => Throughout (Settled T) sp n') s'.table := by
  obtain ⟨hbrackets, hcs⟩ : cs.all (·.kind.isArrayPart) = true ∧ formedAll cs = true := by
    simpa [formed, admits, Function.comp_def] using hf
  have hinert : ∀ c ∈ cs, c.kind.isInert = true := fun c hc => by
    simp [Kind.isInert, Kind.isDeclared, List.all_eq_true.1 hbrackets c hc]
  have hdecl := any_above_bare Kind.isDeclaration Kind.isDeclaration_bare habove 1
  have hinto : Filling (sp.into id (.parameter head)) s.table := h.into_closed id rfl
  have hpast : (sp.into id (.parameter head)).pastAll cs = sp.into id (.parameter head) := Spot.pastAll_inert hcs hinert
  have hdone : ∀ {t t' : SymbolTable} {head' : ParameterHead} {cs' : List Node}, Filling (sp.into id (.parameter head)) t' →
      Extends isDefinite t t' → (∀ T, Extends isDefinite t' T →
        ∀ x, declares? sp.above (Kind.parameter head).bare = some x → Declares T sp.scope x id) →
      (Kind.parameter head').bare = (Kind.parameter head).bare →
        Fills t (sp.past (.mk id (.parameter head) o cs))
          (fun T => Throughout (Settled T) sp (.mk id (.parameter head') o cs')) t' := by
    intro t t' head' cs' hf he hdeclares hbare
    refine ⟨?_, he, fun T hT => ⟨⟨fun x hx => hdeclares T hT x ?_, fun ho => by cases ho⟩, fun hk => by cases hk⟩⟩
    · rw [Spot.past_closed rfl, hpast]
      exact hf.congr rfl rfl rfl
    · rw [← hbare]; exact hx
  obtain ⟨-, hname, rfl, hs'⟩ | ⟨s1, cs', hdeclaration, hs1, rfl, hcs'⟩ | ⟨s1, -, hdeclaration, hdefinition, hs1, hq⟩ :=
    quiet_parameter hq
  · rw [hs']
    refine hdone hinto (.refl _ _) (fun T _ x hx => ?_) rfl
    simp [bare, declares?, hname] at hx
  · obtain ⟨h', he⟩ := fill_each (fun c hc _ _ _ => fill_inert c (formed_child hf hc) (hinert c hc)) (hs1 ▸ hinto) hcs'
    rw [hs1] at he
    refine hdone h' he (fun T _ x hx => ?_) rfl
    simp [bare, declares?, hdecl, hdeclaration] at hx
  · cases hname : head.name with
    | none =>
      rw [hdefinition hname, hdeclaration] at hfun
      cases hfun
    | some x =>
      obtain ⟨w, s2, cs', henter, rfl, hcs'⟩ := quiet_entering hq
      rw [decay_name, hname] at henter
      have hfills := fill_object (hs1 ▸ h) henter
      rw [hs1] at hfills
      have hinto2 : Filling (sp.into id (.parameter head)) s2.table := hfills.filling.into_closed id rfl
      obtain ⟨h', he⟩ := fill_each (fun c hc _ _ _ => fill_inert c (formed_child hf hc) (hinert c hc)) hinto2 hcs'
      refine hdone h' (hfills.later.trans he) (fun T hT y hy => ?_) (bare_decay head)
      have hy : y = x := by simpa [bare, declares?, hdecl, hdeclaration, hname, eq_comm] using hy
      rw [hy]
      exact hfills.settled T (he.trans hT)

theorem fill_parameters (hf : (Node.mk id .parameters o cs).formed = true) (habove : above.map (·.kind.bare) = sp.above)
    (hfun : above.head?.any (·.kind.isDefinition) = !above.head?.any (·.kind.isDeclaration)) (h : Filling sp s.table)
    (hq : Quiet (visit above (.mk id .parameters o cs)) s n' s') :
    Fills s.table (sp.past (.mk id .parameters o cs)) (fun T => Throughout (Settled T) sp n') s'.table := by
  obtain ⟨hall, -⟩ : cs.all (·.kind.isParameter) = true ∧ formedAll cs = true := by
    simpa [formed, admits, Function.comp_def] using hf
  obtain ⟨cs', rfl, hcs'⟩ := quiet_visit_plain rfl hq
  have hfills := fill_all _ (above_into id .parameters o cs habove) (fun c hc sp hsp s1 m s2 h hm => by
    have hkind := List.all_eq_true.1 hall c hc
    obtain ⟨i, kind, oc, ccs⟩ := c
    cases kind with
    | parameter head =>
      refine fill_parameter (formed_child hf hc) hsp ?_ h hm
      simpa [List.head?_eq_getElem?] using hfun
    | _ => cases hkind) (h.into_closed id rfl) hcs'
  exact (hfills.weaken fun T hT => ⟨fun x hx => by simp [declares?, bare] at hx, hT⟩).node rfl rfl

/-- A name of the file stands for a function with a body. -/
def Defined (t : SymbolTable) (x : String) : Prop :=
  ∃ v g, t.named? 0 (some x) = some v ∧ t.symbol v = .function g ∧ g.form.isDefinition = true

theorem Defined.extends (h : Defined t x) (he : Extends isDefinite t T) : Defined T x := by
  obtain ⟨v, g, hv, hg, hform⟩ := h
  obtain ⟨hv', hsymbol⟩ := he.named_eq _ _ _ hv (by rw [hg]; exact hform)
  exact ⟨v, g, hv', hsymbol.trans hg, hform⟩

/-- A function is entered only if no function of its name has a body, or if it has none itself. -/
theorem fill_enterFunction (hf : Filling sp s.table) (hroot : sp.scope = 0) (hname : head.name = some x)
    (hq : Quiet (enterFunction n above head) s false s') :
    Filling sp s'.table ∧ Extends isDefinite s.table s'.table ∧
      (head.form.isDefinition = true → ¬ Defined s.table x ∧ Defined s'.table x) := by
  obtain ⟨position, s1, hpos, hrest⟩ := hq.bind
  obtain ⟨-, rfl⟩ := runs_pass_lift.1 hpos.runs
  obtain ⟨r, s2, hdecl, hlast⟩ := hrest.bind
  obtain ⟨-, rfl⟩ := runs_pure.1 hlast.runs
  have hcurrent := hf.current
  rw [hroot] at hcurrent
  have hsymbol : (functionSymbol n head position id).name = some x := hname
  obtain ⟨haccept, v, rfl, hrun⟩ | ⟨⟨v, hv, hignore⟩, rfl, rfl⟩ := quiet_declare_cases hcurrent hsymbol hdecl
  · obtain ⟨t, ht, rfl⟩ := runs_onTable.1 hrun
    obtain ⟨rfl, he⟩ := runs_insertFunction hcurrent (hroot ▸ hf.scope_lt) ht
    have hold : ∀ v, s1.table.named? 0 (some x) = some v → (s1.table.symbol v).isDefinite = false := by
      intro v hv
      obtain ⟨f, g, hsymbol, hform, -, -⟩ := conflict_accept (haccept v hv)
      rw [hsymbol]
      exact hform
    refine ⟨hf.enters (hroot ▸ he) (fun f h => ⟨hroot, by cases h; rfl⟩) (fun o h => by cases h), he.extends hf.built
      (by rw [Symbol.name, hname]; exact hold), fun hform => ⟨?_, ?_⟩⟩
    · rintro ⟨v, g, hv, hg, hg'⟩
      have := hold v hv
      rw [hg, isDefinite, hg'] at this
      cases this
    · refine ⟨_, _, ?_, (he.symbol_eq _).trans (if_pos rfl), hform⟩
      rw [he.named?, if_pos ⟨rfl, hname.symm⟩]
  · refine ⟨hf, .refl _ _, fun hform => ?_⟩
    have := conflict_ignore (show conflict _ (.function _) = _ from hignore)
    exact absurd hform (by simpa using this)

/-- What stands below a function: its parameters, and its body if it has one. -/
theorem function_children (hf : (Node.mk id (.function head) o cs).formed = true) :
    head.name.isSome = true ∧ ∃ ip op ps, (Node.mk ip .parameters op ps).formed = true ∧
      (head.form.isDefinition = false ∧ cs = [.mk ip .parameters op ps] ∨
        ∃ ib ob bs, (Node.mk ib .statements ob bs).formed = true ∧ head.form.isDefinition = true ∧
          cs = [.mk ip .parameters op ps, .mk ib .statements ob bs]) := by
  obtain ⟨⟨hname, hfits⟩, hcs⟩ : (head.name.isSome = true ∧ (if head.form.isDefinition = true then
      fits [(· == .parameters), (· == .statements)] (cs.map Node.kind)
      else fits [(· == .parameters)] (cs.map Node.kind)) = true) ∧ formedAll cs = true := by
    simpa [formed, admits] using hf
  refine ⟨hname, ?_⟩
  cases hform : head.form.isDefinition with
  | false =>
    obtain _ | ⟨⟨ip, kp, op, ps⟩, _ | _⟩ := cs
    · simp [hform, fits] at hfits
    · obtain rfl : kp = .parameters := by simpa [hform, fits, Node.kind] using hfits
      exact ⟨ip, op, ps, by simpa [formedAll] using hcs, .inl ⟨rfl, rfl⟩⟩
    · simp [hform, fits] at hfits
  | true =>
    obtain _ | ⟨⟨ip, kp, op, ps⟩, _ | ⟨⟨ib, kb, ob, bs⟩, _ | _⟩⟩ := cs
    · simp [hform, fits] at hfits
    · simp [hform, fits] at hfits
    · obtain ⟨rfl, rfl⟩ : kp = .parameters ∧ kb = .statements := by simpa [hform, fits, Node.kind] using hfits
      obtain ⟨hp, hb⟩ : (Node.mk ip .parameters op ps).formed = true ∧ (Node.mk ib .statements ob bs).formed = true := by
        simpa [formedAll] using hcs
      exact ⟨ip, op, ps, hp, .inr ⟨ib, ob, bs, hb, rfl, rfl⟩⟩
    · simp [hform, fits] at hfits

theorem fill_functionChildren (hf : (Node.mk id (.function head) o cs).formed = true)
    (habove : above.map (·.kind.bare) = sp.above) (h : Filling (sp.into id (.function head)) s.table)
    (hq : Quiet (visitAll (.mk id (.function head) o cs :: above) cs) s cs' s') :
    Fills s.table ((sp.into id (.function head)).pastAll cs)
      (fun T => ThroughoutAll (Settled T) (sp.into id (.function head)) cs') s'.table := by
  have habove' := above_into id (.function head) o cs habove
  have hfun : (Node.mk id (.function head) o cs :: above).head?.any (·.kind.isDefinition) =
      !(Node.mk id (.function head) o cs :: above).head?.any (·.kind.isDeclaration) := by
    simp [Node.kind, Kind.isDefinition, Kind.isDeclaration]
  refine fill_all _ habove' (fun c hc sp hsp _ _ _ => ?_) h hq
  obtain ⟨-, ip, op, ps, hp, hcs⟩ := function_children hf
  obtain rfl | ⟨ib, ob, bs, hb, rfl⟩ : c = .mk ip .parameters op ps ∨
      ∃ ib ob bs, (Node.mk ib .statements ob bs).formed = true ∧ c = .mk ib .statements ob bs := by
    obtain ⟨-, rfl⟩ | ⟨ib, ob, bs, hb, -, rfl⟩ := hcs <;> grind
  · exact fill_parameters hp hsp hfun
  · exact fill_visit _ hb rfl sp hsp

/-! ## Programs -/

def definition? (n : Node) : Option String :=
  match n.kind with
  | .function head => if head.form.isDefinition then head.name else none
  | _ => none

/-- The names of the functions with a body. -/
def definitions (ns : List Node) : List String := ns.filterMap definition?

theorem fill_function (hf : (Node.mk id (.function head) o cs).formed = true)
    (habove : above.map (·.kind.bare) = sp.above) (hroot : sp.scope = 0) (h : Filling sp s.table)
    (hq : Quiet (visit above (.mk id (.function head) o cs)) s n' s') :
    Fills s.table (sp.past (.mk id (.function head) o cs)) (fun T => Throughout (Settled T) sp n') s'.table ∧
      ∀ x ∈ definitions [.mk id (.function head) o cs], ¬ Defined s.table x ∧ Defined s'.table x := by
  obtain ⟨x, hx⟩ := Option.isSome_iff_exists.1 (function_children hf).1
  obtain ⟨s1, s2, hs1, henter, hrest⟩ := quiet_function hq
  obtain ⟨h2, he2, hdefined⟩ := fill_enterFunction (hs1 ▸ h) hroot hx henter
  rw [hs1] at he2 hdefined
  cases hform : head.form.isDefinition with
  | true =>
    obtain ⟨cs', s3, rfl, hcs', hshut⟩ := quiet_scoped h2.replaying h2.current (if_pos hform ▸ hrest)
    have hopens : opens sp.above (Kind.function head).bare = true := hform
    have hdefinition : (Kind.function head).isDefinition = true := hform
    have hopened := h2.opened id head.name hopens
    rw [hdefinition] at hopened
    have hfills := fill_functionChildren hf habove hopened hcs'
    have hclosed := h2.closed o hopens (by rw [hdefinition]; exact hfills)
    rw [hshut _ hfills.filling.current]
    refine ⟨⟨hclosed.filling, he2.trans hclosed.later, fun T hT => ?_⟩, fun y hy => ?_⟩
    · obtain ⟨hat, hcs⟩ := hclosed.settled T hT
      exact ⟨⟨fun y hy => (by cases hy), fun _ => hat⟩, fun _ => hcs⟩
    · have hname : definition? (.mk id (.function head) o cs) = some x := by simp [definition?, Node.kind, hform, hx]
      obtain rfl : y = x := by simpa [definitions, hname] using hy
      obtain ⟨hnot, hdef⟩ := hdefined hform
      exact ⟨hnot, hdef.extends hclosed.later⟩
  | false =>
    rw [hform] at hrest
    obtain ⟨cs', rfl, hcs'⟩ := hrest
    have hopens : opens sp.above (Kind.function head).bare = false := hform
    have hfills := fill_functionChildren hf habove (h2.into_closed id hopens) hcs'
    refine ⟨(Fills.trans (P := fun _ => True) ⟨h2, he2, fun _ _ => trivial⟩ hfills).weaken
      (fun T hT => ⟨fun y hy => (by cases hy), hT.2⟩) |>.node rfl hopens, fun y hy => ?_⟩
    simp [definitions, definition?, Node.kind, hform] at hy

theorem fill_item (hf : n.formed = true) (hitem : n.kind.isItem = true) (habove : above.map (·.kind.bare) = sp.above)
    (hroot : sp.scope = 0) (h : Filling sp s.table) (hq : Quiet (visit above n) s n' s') :
    Fills s.table (sp.past n) (fun T => Throughout (Settled T) sp n') s'.table ∧
      ∀ x ∈ definitions [n], ¬ Defined s.table x ∧ Defined s'.table x := by
  obtain ⟨id, kind, o, cs⟩ := n
  cases kind with
  | function head => exact fill_function hf habove hroot h hq
  | variableDeclaration spec =>
    exact ⟨fill_visit _ hf rfl sp habove h hq, by simp [definitions, definition?, Node.kind]⟩
  | includeFile std name =>
    obtain rfl : cs = [] := by
      simp only [formed, admits, Bool.and_eq_true, List.isEmpty_map, List.isEmpty_iff] at hf
      exact hf.1
    obtain ⟨cs', rfl, hcs'⟩ := quiet_visit_plain rfl hq
    obtain ⟨rfl, rfl⟩ := quiet_nil hcs'
    refine ⟨Fills.node ⟨h.into_closed id rfl, .refl _ _, fun _ _ => ⟨fun x hx => (by cases hx), trivial⟩⟩ rfl rfl, ?_⟩
    simp [definitions, definition?, Node.kind]
  | _ => cases hitem

theorem fill_items (sp : Spot) (hf : formedAll ns = true) (hitems : ∀ n ∈ ns, n.kind.isItem = true)
    (habove : above.map (·.kind.bare) = sp.above) (hroot : sp.scope = 0) (h : Filling sp s.table)
    (hq : Quiet (visitAll above ns) s ns' s') :
    Fills s.table (sp.pastAll ns) (fun T => ThroughoutAll (Settled T) sp ns') s'.table ∧ (definitions ns).Nodup ∧
      ∀ x ∈ definitions ns, ¬ Defined s.table x ∧ Defined s'.table x := by
  induction ns generalizing sp s ns' with
  | nil =>
    obtain ⟨rfl, rfl⟩ := quiet_nil hq
    exact ⟨⟨h, .refl _ _, fun _ _ => trivial⟩, by simp [definitions], by simp [definitions]⟩
  | cons n ns ih =>
    obtain ⟨hn, hns⟩ := Bool.and_eq_true_iff.1 hf
    obtain ⟨m, ms, s1, rfl, hm, hms⟩ := visits.quiet_cons hq
    obtain ⟨h1, hdefined⟩ := fill_item hn (hitems n List.mem_cons_self) habove hroot h hm
    obtain ⟨h2, hnodup, hdefineds⟩ := ih (sp.past n) hns (fun m hm => hitems m (List.mem_cons_of_mem n hm)) habove hroot
      h1.filling hms
    have hsplit : definitions (n :: ns) = definitions [n] ++ definitions ns := by
      rw [definitions, ← List.singleton_append, List.filterMap_append]
      rfl
    refine ⟨?_, ?_, ?_⟩
    · rw [Spot.pastAll_cons]
      refine (h1.trans h2).weaken fun T ⟨hT, hT'⟩ => ⟨hT, ?_⟩
      rw [Spot.past_congr (gives_visit _ _ _ _ _ hm.runs)]
      exact hT'
    · rw [hsplit]
      refine List.nodup_append.2 ⟨?_, hnodup, fun x hx y hy heq => ?_⟩
      · cases hname : definition? n <;> simp [definitions, hname]
      · exact (hdefineds y hy).1 (heq ▸ (hdefined x hx).2)
    · rw [hsplit]
      intro x hx
      obtain hx | hx := List.mem_append.1 hx
      · exact ⟨(hdefined x hx).1, (hdefined x hx).2.extends h2.later⟩
      · exact ⟨fun h => (hdefineds x hx).1 (h.extends h1.later), (hdefineds x hx).2⟩

/-- The place of what stands at the top of a program. -/
def Spot.top (id : Nat) : Spot := ({} : Spot).into id .program

theorem filling_top (id : Nat) : Filling (.top id) {} :=
  ⟨built_empty, rfl, rfl, by simp [scope_empty, Spot.top, Spot.into, opens, bare], rfl, Nat.one_pos⟩

/-- The table that is filled from a program: it has the scopes and names of the program, and no two functions with a
body have the same name. -/
theorem fill_program (hf : (Node.mk id .program o cs).formed = true) (hs : s.table = {})
    (hq : Quiet (run (.mk id .program o cs)) s n' s') :
    ∃ cs' T, n' = .mk id .program o cs' ∧ s'.table = T.reset ∧ Filling ((Spot.top id).pastAll cs) T ∧
      ThroughoutAll (Settled T) (.top id) cs' ∧ (definitions cs).Nodup ∧ ∀ x ∈ definitions cs, Defined T x := by
  obtain ⟨hitems, hcs⟩ : (∀ c ∈ cs, c.kind.isItem = true) ∧ formedAll cs = true := by
    simpa [formed, admits] using hf
  obtain ⟨cs', s1, rfl, hcs', hreset⟩ := quiet_program hq
  obtain ⟨hfills, hnodup, hdefined⟩ := fill_items (.top id) hcs hitems rfl rfl (hs ▸ filling_top id) hcs'
  exact ⟨cs', s1.table, rfl, hreset, hfills.filling, hfills.settled _ (.refl _ _), hnodup, fun x hx => (hdefined x hx).2⟩

end MiniC.Lexical
