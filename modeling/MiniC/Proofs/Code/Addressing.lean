import MiniC.Proofs.Code.Naming

/-!
# Lexical addressing

While code is made, the scopes of the table are gone over once more in their order, so that at every place the table
stands where the place is. From this each variable of a program without errors has the level and the offset that the
lexical rules give it.
-/

namespace MiniC

open Emit
open Node (formedAll bareAll formed)
open Kind (bare fits isInert_of_isExpression isInert admits)

variable {ms : List Node} {p : Kind → Bool}

open SymbolTable

namespace Lexical

variable {T t : SymbolTable} {sp : Spot} {above : List Kind} {nodes : List Node} {id : Nat} {kind : Kind}
  {o : Option ParseTree} {n : Node} {cs ns : List Node}

/-! ## Places -/

/-- The table while code is made at a place. -/
def At (T : SymbolTable) (sp : Spot) : SymbolTable → Prop := Replays T sp.scope sp.next

theorem env_into (h : above.map bare = sp.above) (id : Nat) (kind : Kind) :
    sp.env.within above id kind = (sp.into id kind).env := by
  rw [Spot.into, ← h, within_bare]

theorem env_past (h : above.map bare = sp.above) (n : Node) : sp.env.past above n = (sp.past n).env := by
  rw [Spot.past, ← h, past_bare]

theorem env_pastAll (h : above.map bare = sp.above) (ns : List Node) : sp.env.pastAll above ns = (sp.pastAll ns).env := by
  rw [Spot.pastAll, ← h, pastAll_bare]

theorem at_into (h : opens sp.above kind.bare = false) : At T (sp.into id kind) = At T sp := by simp [At, Spot.into, h]

theorem at_past (h : opens sp.above kind.bare = false) :
    At T (sp.past (.mk id kind o cs)) = At T ((sp.into id kind).pastAll cs) := by rw [Spot.past_closed h]; rfl

theorem agree_closed {m m' : EmitM Unit} (hopens : opens sp.above kind.bare = false)
    (h : Agree (At T (sp.into id kind)) (At T ((sp.into id kind).pastAll cs)) m m') :
    Agree (At T sp) (At T (sp.past (.mk id kind o cs))) m m' := by
  rw [at_past hopens, ← at_into hopens]
  exact h

theorem Ready.past (h : Ready T sp) (n : Node) : Ready T (sp.past n) :=
  ⟨h.built, h.located, h.chain, Nat.lt_of_lt_of_le h.lt (Nat.le_add_right ..)⟩

theorem Ready.pastAll (h : Ready T sp) (ns : List Node) : Ready T (sp.pastAll ns) :=
  ⟨h.built, h.located, h.chain, Nat.lt_of_lt_of_le h.lt (Nat.le_add_right ..)⟩

theorem Ready.into (h : Ready T sp) (hn : Settled T sp (.mk id kind o cs)) : Ready T (sp.into id kind) := by
  cases hopens : opens sp.above kind.bare with
  | true =>
    have hat := hn.opens hopens
    exact ⟨h.built, h.located, by simpa [Spot.into, hopens] using hat.above, by simp [Spot.into, hopens]⟩
  | false => exact ⟨h.built, h.located, by simpa [Spot.into, hopens] using h.chain, by simpa [Spot.into, hopens] using h.lt⟩

theorem agree_openScope {isFunction : Bool} {name : Option String} (hr : Ready T sp)
    (hopens : opens sp.above kind.bare = true) (hat : OpensAt T sp isFunction) :
    Agree (At T sp) (At T (sp.into id kind)) (onTable (openScope isFunction name))
      (onTable (openScope isFunction name)) := by
  refine fun s hs => ⟨rfl, fun u s' hruns => ?_⟩
  obtain ⟨t', hopen, hreplays, -⟩ := hs.opened hr.built.toOrdered hat.lt (by rw [hat.above]; rfl) isFunction name
  obtain ⟨t, ht, rfl⟩ := runs_emit_onTable.1 hruns
  obtain rfl : t' = t := (Prod.mk.inj (hopen.symm.trans ht)).2
  simpa [At, Spot.into, hopens] using hreplays

theorem agree_closeScope {isFunction : Bool} (hr : Ready T sp) (hopens : opens sp.above kind.bare = true)
    (hat : OpensAt T sp isFunction) :
    Agree (At T ((sp.into id kind).pastAll cs)) (At T (sp.past (.mk id kind o cs))) (onTable closeScope)
      (onTable closeScope) := by
  refine fun s hs => ⟨rfl, fun u s' hruns => ?_⟩
  have hscope : ((sp.into id kind).pastAll cs).scope = sp.next := by simp [Spot.pastAll, Spot.into, hopens]
  have hnext : sp.next < ((sp.into id kind).pastAll cs).next := by
    simp only [Spot.pastAll, Spot.into, hopens, Bool.toNat_true]
    omega
  unfold At at hs
  rw [hscope] at hs
  obtain ⟨t', hclose, hreplays, -⟩ := hs.closed (by rw [hat.above]; rfl) (Nat.lt_trans hr.lt hnext)
  obtain ⟨t, ht, rfl⟩ := runs_emit_onTable.1 hruns
  obtain rfl : t' = t := (Prod.mk.inj (hclose.symm.trans ht)).2
  rw [Spot.past_opened hopens]
  exact hreplays

/-! ## Parts of a tree -/

theorem Throughout.here {P : Spot → Node → Prop} (h : Throughout P sp n) : P sp n := by
  cases n
  exact h.1

theorem throughoutAll_append {P : Spot → Node → Prop} :
    ThroughoutAll P sp (ns ++ ms) ↔ ThroughoutAll P sp ns ∧ ThroughoutAll P (sp.pastAll ns) ms := by
  induction ns generalizing sp with
  | nil => simp [ThroughoutAll]
  | cons n ns ih => simp only [List.cons_append, ThroughoutAll, ih, Spot.pastAll_cons, and_assoc]

theorem codersBy_append (f : NameCoder) (env : Env) (above : List Kind) (ns ms : List Node) :
    codersBy f env above (ns ++ ms) = codersBy f env above ns ++ codersBy f (env.pastAll above ns) above ms := by
  induction ns generalizing env with
  | nil => rfl
  | cons n ns ih => rw [List.cons_append, codersBy, codersBy, ih, Env.pastAll, List.cons_append]

theorem Spot.pastAll_append (sp : Spot) (ns ms : List Node) : sp.pastAll (ns ++ ms) = (sp.pastAll ns).pastAll ms := by
  induction ns generalizing sp with
  | nil => rfl
  | cons n ns ih => rw [List.cons_append, pastAll_cons, pastAll_cons, ih]

theorem formedAll_append : formedAll (ns ++ ms) = true ↔ formedAll ns = true ∧ formedAll ms = true := by
  simp only [Node.formedAll_eq, List.all_append, Bool.and_eq_true]

theorem codersBy_toList (f : NameCoder) (env : Env) (above : List Kind) (p : Option Node) :
    codersBy f env above p.toList = (p.map (coderBy f env above)).toList := by
  cases p <;> rfl

mutual

theorem scopes_flat (above : List Kind) (n : Node) (hf : n.formed = true) (h : isFlat n.kind = true) :
    scopes above n.bare = 0 := by
  match n with
  | .mk id kind o cs =>
    have hcs : formedAll cs = true := (Bool.and_eq_true_iff.1 hf).2
    have h : isFlat kind = true := h
    rw [Node.bare, scopes, opens_flat h, scopesAll_flat (kind.bare :: above) cs hcs (flat_children hf h)]
    rfl

theorem scopesAll_flat (above : List Kind) (ns : List Node) (hf : formedAll ns = true)
    (h : ∀ n ∈ ns, isFlat n.kind = true) : scopesAll above (bareAll ns) = 0 := by
  match ns with
  | [] => rfl
  | n :: ns =>
    obtain ⟨hn, hns⟩ := Bool.and_eq_true_iff.1 hf
    rw [bareAll, scopesAll, scopes_flat above n hn (h n List.mem_cons_self),
      scopesAll_flat above ns hns fun m hm => h m (List.mem_cons_of_mem n hm)]

end

theorem isFlat_of_isFirst (h : kind.isFirst = true) : isFlat kind = true := by
  cases kind <;> first | rfl | cases h

theorem at_flat (hf : n.formed = true) (h : isFlat n.kind = true) : At T (sp.past n) = At T sp := by
  simp [At, Spot.past, scopes_flat sp.above n hf h]

theorem fits_one (h : fits [p] (cs.map Node.kind) = true) : ∃ c, cs = [c] ∧ p c.kind = true := by
  match cs with
  | [c] => exact ⟨c, rfl, by simpa [fits] using h⟩
  | [] | _ :: _ :: _ => simp [fits] at h

theorem fits_two {q : Kind → Bool} (h : fits [p, q] (cs.map Node.kind) = true) :
    ∃ c d, cs = [c, d] ∧ p c.kind = true ∧ q d.kind = true := by
  match cs with
  | [c, d] => exact ⟨c, d, rfl, by simpa [fits] using h⟩
  | [] | [_] | _ :: _ :: _ :: _ => simp [fits] at h

theorem fits_three {q r : Kind → Bool} (h : fits [p, q, r] (cs.map Node.kind) = true) :
    ∃ c d e, cs = [c, d, e] ∧ p c.kind = true ∧ q d.kind = true ∧ r e.kind = true := by
  match cs with
  | [c, d, e] => exact ⟨c, d, e, rfl, by simpa [fits] using h⟩
  | [] | [_] | [_, _] | _ :: _ :: _ :: _ :: _ => simp [fits] at h

/-- A part of a list that may be missing. -/
theorem fits_optional {a : Bool} {ps : List (Kind → Bool)}
    (h : fits ((if a then [p] else []) ++ ps) (cs.map Node.kind) = true) :
    ∃ (x : Option Node) (rest : List Node), cs = x.toList ++ rest ∧ x.isSome = a ∧ (∀ n ∈ x, p n.kind = true) ∧
      fits ps (rest.map Node.kind) = true := by
  cases a with
  | false => exact ⟨none, cs, rfl, rfl, by simp, h⟩
  | true =>
    cases cs with
    | nil => cases h
    | cons n ns =>
      obtain ⟨hn, hns⟩ : p n.kind = true ∧ fits ps (ns.map Node.kind) = true := by simpa [fits] using h
      exact ⟨some n, ns, rfl, rfl, by simpa using hn, hns⟩

/-- The parts of the header of a loop, and its body. -/
theorem loop_children {a b c : Bool} (h : (Kind.forLoop a b c).admits (cs.map Node.kind) = true) :
    ∃ (p q r : Option Node) (body : Node), cs = p.toList ++ (q.toList ++ (r.toList ++ [body])) ∧ a = p.isSome ∧
      b = q.isSome ∧ c = r.isSome ∧ (∀ n ∈ p, n.kind.isFirst = true) ∧ (∀ n ∈ q, n.kind.isInert = true) ∧
      ∀ n ∈ r, n.kind.isInert = true := by
  have h : fits (Kind.loopParts a b c) (cs.map Node.kind) = true := h
  simp only [Kind.loopParts, List.append_assoc] at h
  obtain ⟨p, cs, rfl, rfl, hp, h⟩ := fits_optional h
  obtain ⟨q, cs, rfl, rfl, hq, h⟩ := fits_optional h
  obtain ⟨r, cs, rfl, rfl, hr, h⟩ := fits_optional h
  obtain _ | ⟨body, _ | _⟩ := cs
  · simp [fits] at h
  · exact ⟨p, q, r, body, rfl, rfl, rfl, rfl, hp, fun n hn => isInert_of_isExpression (hq n hn), fun n hn =>
      isInert_of_isExpression (hr n hn)⟩
  · simp [fits] at h

theorem headerCoders_parts (p q r : Option Coder) (cs : List Coder) :
    headerCoders p.isSome q.isSome r.isSome (p.toList ++ (q.toList ++ (r.toList ++ cs))) = (p, q, r, cs) := by
  cases p <;> cases q <;> cases r <;> rfl

/-! ## Statements -/

def AgreeAll (T : SymbolTable) (nodes : List Node) (above : List Kind) (sp : Spot) : List Node → Prop
  | [] => True
  | n :: ns => AgreeIn nodes (At T sp) (At T (sp.past n)) (coder n) (coderBy name sp.env above n) ∧
      AgreeAll T nodes above (sp.past n) ns

theorem agreeAll_append :
    AgreeAll T nodes above sp (ns ++ ms) ↔ AgreeAll T nodes above sp ns ∧ AgreeAll T nodes above (sp.pastAll ns) ms := by
  induction ns generalizing sp with
  | nil => simp [AgreeAll]
  | cons n ns ih => simp only [List.cons_append, AgreeAll, ih, Spot.pastAll_cons, and_assoc]

theorem AgreeAll.runAll (habove : above.map bare = sp.above) (h : AgreeAll T nodes above sp ns)
    (address : Bool) (again after : Option Label) :
    Agree (At T sp) (At T (sp.pastAll ns)) (runAll { address, again, after, above := nodes } (coders ns))
      (runAll { address, again, after, above := nodes } (codersBy name sp.env above ns)) := by
  induction ns generalizing sp with
  | nil => exact (steady_pure _).agree
  | cons n ns ih =>
    rw [Spot.pastAll_cons, coders, codersBy, env_past habove]
    exact (h.1 _ _ _).bind fun _ => ih habove h.2

theorem agree_statements (habove : nodes.map (·.kind.bare) = sp.above) (hr : Ready T sp)
    (hn : Settled T sp (.mk id .statements o cs)) {cs' cs'' : List Coder} {setting : Setting}
    (h : Agree (At T (sp.into id .statements)) (At T ((sp.into id .statements).pastAll cs)) (runAll setting cs')
      (runAll setting cs'')) :
    Agree (At T sp) (At T (sp.past (.mk id .statements o cs))) (Emit.statements cs' nodes setting)
      (Emit.statements cs'' nodes setting) := by
  have hopens := opensScope_eq habove
  unfold Emit.statements
  cases hscope : Fill.opensScope nodes with
  | true =>
    have ho : opens sp.above (bare .statements) = true := hopens.symm.trans hscope
    have hat := hn.opens ho
    exact (agree_openScope hr ho hat).bind fun _ => h.bind fun _ => agree_closeScope hr ho hat
  | false =>
    have ho : opens sp.above (bare .statements) = false := hopens.symm.trans hscope
    exact agree_closed ho (h.after fun _ => steady_pure _)

/-- The coder of an expression at a place, whatever the scopes in front of it. -/
theorem match_here (hr : Ready T sp) (hf : n.formed = true) (hi : n.kind.isInert = true) (hn : Throughout (Resolved T) sp n)
    (k : Nat) : Coder.Match (Replays T sp.scope k) (coder n) (coderBy name sp.env above n) :=
  match_inert hr k above n hf hi (hn.here.linked hi)

theorem match_all (hr : Ready T sp) (hf : formedAll ns = true) (hi : ∀ n ∈ ns, n.kind.isInert = true)
    (hns : ThroughoutAll (Resolved T) sp ns) (k : Nat) :
    List.Forall₂ (Coder.Match (Replays T sp.scope k)) (coders ns) (codersBy name sp.env above ns) := by
  refine match_inertAll hr k above ns hf hi ?_
  induction ns with
  | nil => trivial
  | cons n ns ih =>
    obtain ⟨hn, hfs⟩ := Bool.and_eq_true_iff.1 hf
    have hin := hi n List.mem_cons_self
    have hns' := hns.2
    rw [Spot.past_inert hn hin] at hns'
    exact ⟨hns.1.here.linked hin, ih hfs (fun m hm => hi m (List.mem_cons_of_mem n hm)) hns'⟩

/-- The coders of a variable agree, whatever scopes have been gone over. -/
theorem agree_declarator {head : DeclaratorHead} (hf : (Node.mk id (.declarator head) o cs).formed = true)
    (habove : above.map bare = sp.above) (hr : Ready T sp)
    (hn : Throughout (Resolved T) sp (.mk id (.declarator head) o cs)) (k : Nat) (setting : Setting) :
    Agree (Replays T sp.scope k) (Replays T sp.scope k) ((coder (.mk id (.declarator head) o cs)).run setting)
      ((coderBy name sp.env above (.mk id (.declarator head) o cs)).run setting) := by
  obtain ⟨hadmits, hcs⟩ := Bool.and_eq_true_iff.1 hf
  have hdeclared : ∀ c ∈ cs, c.kind.isInert = true := fun c hc => by
    have := List.all_eq_true.1 (Bool.and_eq_true_iff.1 hadmits).2 c.kind (List.mem_map_of_mem hc)
    simp [isInert, this]
  rw [coderBy, coder, env_into habove]
  exact Emit.agree_declarator (match_all (hr.into hn.1.toSettled) hcs hdeclared (hn.2 rfl) k)

/-- A part of the header of a loop that is an expression. -/
theorem match_optional {q : Option Node} (hr : Ready T sp) (hf : formedAll q.toList = true)
    (hi : ∀ n ∈ q, n.kind.isInert = true) (hq : ThroughoutAll (Resolved T) sp q.toList) (k : Nat) :
    Option.Rel (Coder.Match (Replays T sp.scope k)) (q.map coder) (q.map (coderBy name sp.env above)) := by
  cases q with
  | none => exact .none
  | some n => exact .some (match_here hr (by simpa [formedAll] using hf) (hi n rfl) hq.1 k)

theorem agree_loop {p q r : Option Node} {body : Node} {setting : Setting} {I J : SymbolTable → Prop}
    (hparts : cs = p.toList ++ (q.toList ++ (r.toList ++ [body]))) (habove : above.map bare = sp.above) (hr : Ready T sp)
    (hf : formedAll cs = true) (hp : ∀ n ∈ p, n.kind.isFirst = true) (hq : ∀ n ∈ q, n.kind.isInert = true)
    (hr' : ∀ n ∈ r, n.kind.isInert = true) (hn : ThroughoutAll (Resolved T) sp cs) (hcs : AgreeAll T setting.above above sp cs)
    (hopen : Agree I (At T sp) (onTable (openScope false none)) (onTable (openScope false none)))
    (hclose : Agree (At T (sp.pastAll cs)) J (onTable closeScope) (onTable closeScope)) :
    Agree I J (Emit.forLoop p.isSome q.isSome r.isSome (coders cs) setting)
      (Emit.forLoop p.isSome q.isSome r.isSome (codersBy name sp.env above cs) setting) := by
  subst hparts
  obtain ⟨hfp, hfq, hfr, -⟩ := by simpa only [formedAll_append] using hf
  have hpastq : (sp.pastAll p.toList).pastAll q.toList = sp.pastAll p.toList := Spot.pastAll_inert hfq (by simpa using hq)
  have hpastr : (sp.pastAll p.toList).pastAll r.toList = sp.pastAll p.toList := Spot.pastAll_inert hfr (by simpa using hr')
  simp only [Spot.pastAll_append, hpastq, hpastr] at hclose
  simp only [throughoutAll_append, hpastq, hpastr] at hn
  simp only [agreeAll_append, hpastq, hpastr] at hcs
  obtain ⟨hnp, hnq, hnr, hnb⟩ := hn
  obtain ⟨hcp, -, -, hcb⟩ := hcs
  -- the initialiser declares in the scope of the loop and opens none
  have hat : At T (sp.pastAll p.toList) = At T sp := by
    cases p with
    | none => rfl
    | some n => exact at_flat (by simpa [formedAll] using hfp) (isFlat_of_isFirst (hp n rfl))
  have habove' : above.map bare = (sp.pastAll p.toList).above := habove
  have hheader' : headerCoders p.isSome q.isSome r.isSome
      (codersBy name sp.env above (p.toList ++ (q.toList ++ (r.toList ++ [body])))) =
      (p.map (coderBy name sp.env above), q.map (coderBy name (sp.pastAll p.toList).env above),
        r.map (coderBy name (sp.pastAll p.toList).env above), [coderBy name (sp.pastAll p.toList).env above body]) := by
    have hparts := headerCoders_parts (p.map (coderBy name sp.env above)) (q.map (coderBy name (sp.pastAll p.toList).env above))
      (r.map (coderBy name (sp.pastAll p.toList).env above)) [coderBy name (sp.pastAll p.toList).env above body]
    simp only [Option.isSome_map] at hparts
    rw [codersBy_append, codersBy_append, codersBy_append, codersBy_toList, codersBy_toList, codersBy_toList,
      env_pastAll habove, env_pastAll habove', hpastq, env_pastAll habove', hpastr]
    exact hparts
  have hheader : headerCoders p.isSome q.isSome r.isSome (coders (p.toList ++ (q.toList ++ (r.toList ++ [body])))) =
      (p.map coder, q.map coder, r.map coder, [coder body]) := by
    have hparts := headerCoders_parts (p.map coder) (q.map coder) (r.map coder) [coder body]
    simpa [coders_eq, Option.toList_map] using hparts
  have hfirst : Option.Rel (AgreeIn setting.above (At T sp) (At T sp)) (p.map coder)
      (p.map (coderBy name sp.env above)) := by
    cases p with
    | none => exact .none
    | some n =>
      have hn := hcp.1
      have hat : At T (sp.past n) = At T sp := hat
      rw [hat] at hn
      exact .some hn
  rw [← hat] at hopen hfirst
  exact agree_forLoop hheader hheader' hopen hfirst (match_optional (hr.pastAll _) hfq hq hnq _) hcb.1
    (match_optional (hr.pastAll _) hfr hr' hnr _) hclose

theorem AgreeAll.condition {c : Node} (h : AgreeAll T nodes above sp (c :: ns)) (hf : c.formed = true)
    (hi : c.kind.isInert = true) : AgreeAll T nodes above sp ns := by
  have h := h.2
  rwa [Spot.past_inert hf hi] at h

theorem codersBy_cons (habove : above.map bare = sp.above) (n : Node) (ns : List Node) :
    codersBy name sp.env above (n :: ns) = coderBy name sp.env above n :: codersBy name (sp.past n).env above ns := by
  rw [codersBy, env_past habove]

section

variable {setting : Setting} {c d e : Node} (habove : above.map bare = sp.above) (hr : Ready T sp)
  (hf : formedAll cs = true) (hn : ThroughoutAll (Resolved T) sp cs) (hcs : AgreeAll T setting.above above sp cs)

include habove hr hf hn hcs

theorem agree_if (hkinds : Kind.ifStmt.admits (cs.map Node.kind) = true) :
    Agree (At T sp) (At T (sp.pastAll cs)) (choice (coders cs) setting)
      (choice (codersBy name sp.env above cs) setting) := by
  obtain hfits | hfits := Bool.or_eq_true_iff.1 hkinds
  · obtain ⟨c, d, rfl, hc, -⟩ := fits_two hfits
    have hi := isInert_of_isExpression hc
    obtain ⟨hfc, -⟩ := Bool.and_eq_true_iff.1 hf
    have hd := hcs.condition hfc hi
    simp only [coders, codersBy_cons habove, Spot.pastAll_cons, Spot.pastAll_nil, Spot.past_inert hfc hi]
    exact agree_choice₂ (match_here hr hfc hi hn.1 _) hd.1
  · obtain ⟨c, d, e, rfl, hc, -, -⟩ := fits_three hfits
    have hi := isInert_of_isExpression hc
    obtain ⟨hfc, -⟩ := Bool.and_eq_true_iff.1 hf
    have hd := hcs.condition hfc hi
    simp only [coders, codersBy_cons habove, Spot.pastAll_cons, Spot.pastAll_nil, Spot.past_inert hfc hi]
    have habove' : above.map bare = (sp.past d).above := habove
    rw [codersBy_cons habove']
    exact agree_choice₃ (match_here hr hfc hi hn.1 _) hd.1 hd.2.1

theorem agree_while (hkinds : Kind.whileLoop.admits (cs.map Node.kind) = true) :
    Agree (At T sp) (At T (sp.pastAll cs)) (Emit.whileLoop (coders cs) setting)
      (Emit.whileLoop (codersBy name sp.env above cs) setting) := by
  obtain ⟨c, d, rfl, hc, -⟩ := fits_two hkinds
  have hi := isInert_of_isExpression hc
  obtain ⟨hfc, -⟩ := Bool.and_eq_true_iff.1 hf
  have hd := hcs.condition hfc hi
  simp only [coders, codersBy_cons habove, Spot.pastAll_cons, Spot.pastAll_nil, Spot.past_inert hfc hi]
  exact agree_whileLoop (match_here hr hfc hi hn.1 _) hd.1

/-- The condition is coded twice, once before the scopes of the body have been gone over. -/
theorem agree_do (hkinds : Kind.doWhile.admits (cs.map Node.kind) = true) :
    Agree (At T sp) (At T (sp.pastAll cs)) (Emit.doWhile (coders cs) setting)
      (Emit.doWhile (codersBy name sp.env above cs) setting) := by
  obtain ⟨d, c, rfl, -, hc⟩ := fits_two hkinds
  have hi := isInert_of_isExpression hc
  obtain ⟨-, hfc⟩ : d.formed = true ∧ c.formed = true := by simpa [formedAll] using hf
  have habove' : above.map bare = (sp.past d).above := habove
  have hcondition : ∀ k, Coder.Match (Replays T sp.scope k) (coder c) (coderBy name (sp.past d).env above c) :=
    match_here (hr.past d) hfc hi hn.2.1
  simp only [coders, Spot.pastAll_cons, Spot.pastAll_nil, Spot.past_inert hfc hi]
  rw [codersBy_cons habove, codersBy_cons habove']
  exact agree_doWhile hcs.1 (hcondition sp.next) (hcondition _)

end

theorem steady_jump (target : Option Label) : Steady (jump target) := by
  cases target with
  | none => exact steady_throw _
  | some l => exact steady_instr _

mutual

theorem agree_visit (n : Node) (hf : n.formed = true) (hin : n.kind.isInner = true) (sp : Spot) {nodes : List Node}
    {above : List Kind} (hnodes : nodes.map (·.kind.bare) = sp.above) (habove : above.map bare = sp.above)
    (hr : Ready T sp) (hn : Throughout (Resolved T) sp n) :
    AgreeIn nodes (At T sp) (At T (sp.past n)) (coder n) (coderBy name sp.env above n) := by
  match n with
  | .mk id kind o cs =>
    by_cases hinert : kind.isInert = true
    · intro address again after
      rw [Spot.past_inert hf hinert]
      exact (match_here hr hf hinert hn _).run _
    · obtain ⟨hcs, hinner⟩ := formed_children hf hin
      have hbelow : (kind.isInert || kind.isParameter) = false := by
        cases kind <;> first | rfl | exact (hinert rfl).elim | cases hin
      have hr1 := hr.into hn.1.toSettled
      have hchildren := hn.2 hbelow
      have habove1 : (kind :: above).map bare = (sp.into id kind).above := by
        rw [List.map_cons, habove]
        rfl
      have hall := agree_visitAll cs hcs hinner (sp.into id kind) (above_into id kind o cs hnodes) habove1 hr1 hchildren
      have hadmits : kind.admits (cs.map Node.kind) = true := (Bool.and_eq_true_iff.1 hf).1
      intro address again after
      rw [coderBy, coder, env_into habove]
      cases kind with
      | statements => exact agree_statements hnodes hr hn.1.toSettled (hall.runAll habove1 _ _ _)
      | statement | elseBranch | variableDeclaration =>
        exact agree_closed rfl (hall.runAll habove1 _ _ _)
      | breakStmt | continueStmt =>
        obtain rfl : cs = [] := by simpa [admits] using hadmits
        exact agree_closed rfl (steady_jump _).agree
      | returnStmt =>
        have hexpr : ∀ c ∈ cs, c.kind.isInert = true := by
          obtain hempty | hfits := Bool.or_eq_true_iff.1 hadmits
          · simp only [List.isEmpty_map, List.isEmpty_iff] at hempty
            simp [hempty]
          · obtain ⟨c, rfl, hc⟩ := fits_one hfits
            simpa using isInert_of_isExpression hc
        refine agree_closed rfl ?_
        rw [Spot.pastAll_inert hcs hexpr]
        exact agree_returnStmt (match_all hr1 hcs hexpr hchildren _)
      | declarator head =>
        rw [← coder, ← env_into habove, ← coderBy, at_flat hf rfl]
        exact agree_declarator hf habove hr hn _ _
      | ifStmt => exact agree_closed rfl (agree_if habove1 hr1 hcs hchildren hall hadmits)
      | whileLoop => exact agree_closed rfl (agree_while habove1 hr1 hcs hchildren hall hadmits)
      | doWhile => exact agree_closed rfl (agree_do habove1 hr1 hcs hchildren hall hadmits)
      | forLoop a b c =>
        obtain ⟨p, q, r, body, hparts, rfl, rfl, rfl, hp, hq, hr'⟩ := loop_children hadmits
        exact agree_loop hparts habove1 hr1 hcs hp hq hr' hchildren hall (agree_openScope hr rfl (hn.1.opens (by rfl)))
          (agree_closeScope hr rfl (hn.1.opens (by rfl)))
      | _ => first | exact (hinert rfl).elim | cases hin

theorem agree_visitAll (ns : List Node) (hf : formedAll ns = true) (hin : ∀ n ∈ ns, n.kind.isInner = true) (sp : Spot)
    {nodes : List Node} {above : List Kind} (hnodes : nodes.map (·.kind.bare) = sp.above)
    (habove : above.map bare = sp.above) (hr : Ready T sp) (hns : ThroughoutAll (Resolved T) sp ns) :
    AgreeAll T nodes above sp ns := by
  match ns with
  | [] => trivial
  | n :: ns =>
    obtain ⟨hn, hfs⟩ := Bool.and_eq_true_iff.1 hf
    exact ⟨agree_visit n hn (hin n List.mem_cons_self) sp hnodes habove hr hns.1, agree_visitAll ns hfs
      (fun m hm => hin m (List.mem_cons_of_mem n hm)) (sp.past n) hnodes habove (hr.past n) hns.2⟩

end

/-! ## Functions -/

/-- The head of a function has no scopes in it. -/
theorem at_parameters (hf : (Node.mk id .parameters o cs).formed = true) :
    At T (sp.past (.mk id .parameters o cs)) = At T sp := by
  obtain ⟨hparameters, hcs⟩ : (∀ c ∈ cs, c.kind.isParameter = true) ∧ formedAll cs = true := by
    simpa [formed, admits] using hf
  have hscopes : ∀ above, scopesAll above (bareAll cs) = 0 := by
    intro above
    induction cs with
    | nil => rfl
    | cons c cs ih =>
      obtain ⟨hc, hcs⟩ := Bool.and_eq_true_iff.1 hcs
      have hrest := ih (by simp [formed, admits, hcs]; exact fun a ha => hparameters a (List.mem_cons_of_mem c ha))
        (fun a ha => hparameters a (List.mem_cons_of_mem c ha)) hcs
      have hparameter := hparameters c List.mem_cons_self
      obtain ⟨i, kind, o, ds⟩ := c
      cases kind with
      | parameter head =>
        obtain ⟨hbrackets, hds⟩ : (∀ d ∈ ds, d.kind.isArrayPart = true) ∧ formedAll ds = true := by
          simpa [formed, admits] using hc
        have hinert : ∀ d ∈ ds, isFlat d.kind = true := fun d hd => by
          simp [isFlat, isInert, Kind.isDeclared, hbrackets d hd]
        rw [bareAll, scopesAll, hrest, Node.bare, scopes, scopesAll_flat _ ds hds hinert]
        rfl
      | _ => cases hparameter
  simp [At, Spot.past, Node.bare, scopes, opens, bare, hscopes]

theorem agree_function {head : FunctionHead} (hf : (Node.mk id (.function head) o cs).formed = true)
    (hdefinition : head.form.isDefinition = true) (hnodes : nodes.map (·.kind.bare) = sp.above)
    (habove : above.map bare = sp.above) (hr : Ready T sp)
    (hn : Throughout (Resolved T) sp (.mk id (.function head) o cs)) :
    AgreeIn nodes (At T sp) (At T (sp.past (.mk id (.function head) o cs))) (coder (.mk id (.function head) o cs))
      (coderBy name sp.env above (.mk id (.function head) o cs)) := by
  have hopens : opens sp.above (Kind.function head).bare = true := hdefinition
  have hat : OpensAt T sp true := hdefinition ▸ hn.1.opens hopens
  have hr1 := hr.into hn.1.toSettled
  have hchildren := hn.2 rfl
  have hnodes1 := above_into id (.function head) o cs hnodes
  have habove1 : (Kind.function head :: above).map bare = (sp.into id (.function head)).above := by
    rw [List.map_cons, habove]
    rfl
  obtain ⟨-, ip, op, ps, hp, ⟨hdeclaration, -⟩ | ⟨ib, ob, bs, hb, -, rfl⟩⟩ := function_children hf
  · rw [hdefinition] at hdeclaration
    cases hdeclaration
  · have hbody := agree_visit _ hb rfl ((sp.into id (.function head)).past (.mk ip .parameters op ps)) hnodes1 habove1
      (hr1.past _) hchildren.2.1
    have hclose : Agree (At T ((sp.into id (.function head)).pastAll [.mk ip .parameters op ps, .mk ib .statements ob bs])) _
      _ _ := agree_closeScope (o := o) hr hopens hat
    rw [Spot.pastAll_cons, Spot.pastAll_cons, Spot.pastAll_nil] at hclose
    rw [at_parameters hp] at hbody
    intro address again after
    have hcode : ∀ (m : Node) (cs' : List Coder) (setting : Setting), m.kind = .function head →
        codeOf m cs' setting = Emit.function head cs' { setting with above := m :: setting.above } := by
      intro m cs' setting hm
      simp only [codeOf, hm, hdefinition, if_true]
    rw [coderBy, coder, env_into habove]
    simp only [Coder.run, codeBy]
    have habove2 : (Kind.function head :: above).map bare =
      ((sp.into id (.function head)).past (.mk ip .parameters op ps)).above := habove1
    rw [hcode _ _ _ rfl, hcode _ _ _ rfl, codersBy_cons habove1, codersBy_cons habove2]
    exact Emit.agree_function rfl rfl (agree_openScope hr hopens hat) hbody hclose

/-! ## Programs -/

/-- Only the functions with a body have scopes. -/
theorem at_item (hf : n.formed = true) (hitem : n.kind.isItem = true) (hdefinition : n.kind.isDefinition = false) :
    At T (sp.past n) = At T sp := by
  obtain ⟨id, kind, o, cs⟩ := n
  cases kind with
  | includeFile library file =>
    obtain rfl : cs = [] := by simpa [admits] using (Bool.and_eq_true_iff.1 hf).1
    rw [at_past rfl, Spot.pastAll_nil, at_into rfl]
  | variableDeclaration spec => exact at_flat hf rfl
  | function head =>
    have hopens : opens sp.above (Kind.function head).bare = false := hdefinition
    obtain ⟨-, ip, op, ps, hp, ⟨-, rfl⟩ | ⟨ib, ob, bs, hb, hbody, -⟩⟩ := function_children hf
    · rw [at_past hopens, Spot.pastAll_cons, Spot.pastAll_nil, at_parameters hp, at_into hopens]
    · have hdefinition : head.form.isDefinition = false := hdefinition
      rw [hdefinition] at hbody
      cases hbody
  | _ => cases hitem

/-- The functions of a program agree. -/
theorem agree_items {p : Node} (ns : List Node) (hf : formedAll ns = true)
    (hitems : ∀ n ∈ ns, n.kind.isItem = true) (sp : Spot) (hp : [p].map (·.kind.bare) = sp.above)
    (habove : above.map bare = sp.above) (hr : Ready T sp) (hns : ThroughoutAll (Resolved T) sp ns) :
    Agree (At T sp) (At T (sp.pastAll ns)) (do for c in coders ns do if c.node.kind.isDefinition then c.run { above := [p] })
      (do for c in codersBy name sp.env above ns do if c.node.kind.isDefinition then c.run { above := [p] }) := by
  refine .after ?_ fun _ => steady_pure _
  induction ns generalizing sp with
  | nil => exact (steady_pure _).agree
  | cons n ns ih =>
    obtain ⟨hn, hfs⟩ := Bool.and_eq_true_iff.1 hf
    have hitem := hitems n List.mem_cons_self
    have hrest := ih hfs (fun m hm => hitems m (List.mem_cons_of_mem n hm)) (sp.past n) hp habove (hr.past n) hns.2
    simp only [Spot.pastAll_cons, coders, codersBy_cons habove, List.forIn_cons, node_coder, node_coderBy]
    cases hdefinition : n.kind.isDefinition with
    | false =>
      rw [at_item hn hitem hdefinition] at hrest
      exact hrest
    | true =>
      have hfunction : AgreeIn [p] (At T sp) (At T (sp.past n)) (coder n) (coderBy name sp.env above n) := by
        obtain ⟨id, kind, o, cs⟩ := n
        cases kind with
        | function head => exact agree_function hn hdefinition hp habove hr hns.1
        | _ => cases hdefinition
      simp only [if_true, bind_assoc, pure_bind]
      exact (hfunction _ _ _).bind fun _ => hrest

/-- The variables of a declaration agree in the table with which the functions begin. -/
theorem agree_declarators {k : Nat} (ns : List Node) (hf : formedAll ns = true)
    (hdeclarators : ∀ n ∈ ns, n.kind.isDeclarator = true) (sp : Spot) (habove : above.map bare = sp.above)
    (hr : Ready T sp) (hns : ThroughoutAll (Resolved T) sp ns) :
    List.Forall₂ (fun c c' => c'.node = c.node ∧
        ∀ setting, Agree (Replays T sp.scope k) (Replays T sp.scope k) (c.run setting) (c'.run setting))
      (coders ns) (codersBy name sp.env above ns) := by
  induction ns generalizing sp with
  | nil => exact .nil
  | cons n ns ih =>
    obtain ⟨hn, hfs⟩ := Bool.and_eq_true_iff.1 hf
    have hrest := ih hfs (fun m hm => hdeclarators m (List.mem_cons_of_mem n hm)) (sp.past n) habove (hr.past n) hns.2
    have hdeclarator := hdeclarators n List.mem_cons_self
    rw [coders, codersBy_cons habove]
    refine .cons ⟨by rw [node_coderBy, node_coder], fun setting => ?_⟩ hrest
    obtain ⟨id, kind, o, cs⟩ := n
    cases kind with
    | declarator head => exact agree_declarator hn habove hr hns.1 k setting
    | _ => cases hdeclarator

/-- The globals of a program agree in the table with which the functions begin. -/
theorem agree_globals {p : Node} {k : Nat} (ns : List Node) (hf : formedAll ns = true)
    (hitems : ∀ n ∈ ns, n.kind.isItem = true) (sp : Spot) (habove : above.map bare = sp.above) (hr : Ready T sp)
    (hns : ThroughoutAll (Resolved T) sp ns) :
    List.Forall₂ (fun g g' => g.2 = g'.2 ∧
        ∀ setting, Agree (Replays T sp.scope k) (Replays T sp.scope k) (g.1.run setting) (g'.1.run setting))
      (globalsOf p (coders ns)) (globalsOf p (codersBy name sp.env above ns)) := by
  induction ns generalizing sp with
  | nil => exact .nil
  | cons n ns ih =>
    obtain ⟨hn, hfs⟩ := Bool.and_eq_true_iff.1 hf
    have hitem := hitems n List.mem_cons_self
    have hrest := ih hfs (fun m hm => hitems m (List.mem_cons_of_mem n hm)) (sp.past n) habove (hr.past n) hns.2
    rw [coders, codersBy_cons habove]
    unfold globalsOf at hrest ⊢
    rw [List.flatMap_cons, List.flatMap_cons, node_coder, node_coderBy]
    refine List.rel_append ?_ hrest
    obtain ⟨id, kind, o, cs⟩ := n
    cases kind with
    | variableDeclaration spec =>
      obtain ⟨hadmits, hcs⟩ := Bool.and_eq_true_iff.1 hn
      have hall : ∀ c ∈ cs, c.kind.isDeclarator = true := by simpa [admits] using hadmits
      have habove1 : (Kind.variableDeclaration spec :: above).map bare = (sp.into id (.variableDeclaration spec)).above := by
        rw [List.map_cons, habove]
        rfl
      have hdeclarators := agree_declarators (k := k) cs hcs hall (sp.into id (.variableDeclaration spec)) habove1
        (hr.into hns.1.1.toSettled) (hns.1.2 rfl)
      rw [coderBy, env_into habove, coder]
      dsimp only [Node.kind, Coder.children]
      rw [List.forall₂_map_left_iff, List.forall₂_map_right_iff]
      refine (List.rel_filter ?_ hdeclarators).imp ?_
      · rintro c c' ⟨hnode, -⟩
        dsimp only
        rw [hnode]
      · rintro c c' ⟨-, hagree⟩
        exact ⟨rfl, hagree⟩
    | _ => exact .nil

theorem steady_storeLiteral (codes : List Nat) (address : Int) : Steady (storeLiteral codes address) := by
  refine .bind (.forIn fun _ _ => .bind (steady_instrs _) fun _ => steady_pure _) fun _ => ?_
  split
  · exact steady_instrs _
  · exact steady_pure _

/-- A program whose names have the symbols that they stand for. -/
theorem agree_program (hf : (Node.mk id .program o cs).formed = true) (hT : Built T) (hlocated : Located T)
    (hcs : ThroughoutAll (Resolved T) (.top id) cs) :
    Agree (Replays T 0 1) (fun _ => True) (program (.mk id .program o cs)) (programBy name (.mk id .program o cs)) := by
  have hr : Ready T (.top id) := ⟨hT, hlocated, hT.root_above, Nat.one_pos⟩
  obtain ⟨hitems, hfs⟩ : (∀ c ∈ cs, c.kind.isItem = true) ∧ formedAll cs = true := by
    simpa [formed, admits] using hf
  have habove : [Kind.program].map bare = (Spot.top id).above := rfl
  rw [← programOf_coders, programBy]
  unfold programOf
  refine .steady (steady_instrs _) fun _ => .steady steady_reserve fun _ => .read fun s => .steady (.forIn fun x _ => ?_) fun _ =>
    .bind (.forIn₂ (agree_globals (k := 1) cs hfs hitems _ habove hr hcs) ?_) fun _ => .steady (steady_instrs _) fun _ => ?_
  · exact .bind (steady_offsetOf _) fun _ => .bind (steady_storeLiteral _ _) fun _ => steady_pure _
  · rintro ⟨c, above⟩ ⟨c', _⟩ ⟨rfl, hagree⟩
    exact (hagree _).after fun _ => steady_pure _
  · exact (agree_items cs hfs hitems (.top id) rfl habove hr hcs).mono (fun _ ht => ht) fun _ _ => trivial

end Lexical

/-- The code of a program without errors is that in which each variable has the level and the offset of its declaration,
the one that is visible by the lexical rules. -/
theorem lexicalAddressing_of_compileNode {n : Node} {c : Compilation} {messages : Array String} (hn : n.IsProgram)
    (hfree : n.Each fun k => k.variable? ≠ some "printf" ∧ k.variable? ≠ some "scanf")
    (h : compileNode n { stage := .done, messages } = .ok c) (he : Diagnostic.errorCount c.found = 0) :
    ∃ n1 n2 n3 n' s1 s2 s', Accepted n n1 n2 n3 n' s1 s2 s' ∧ Located s'.table ∧
      c.code = some (Lexical.generate n' s'.table).2 ∧ c.fault = (Lexical.generate n' s'.table).1 := by
  obtain ⟨n1, n2, n3, n', s1, s2, s', haccepted, hcode, hfault⟩ := accepted_of_compileNode h he
  obtain ⟨T, id, o, cs, rfl, hformed, hT, hlocated, hreplays, hresolved⟩ := haccepted.places hn hfree
  have hsame : outcome (Emit.program _) _ = outcome (Lexical.programBy Lexical.name _) _ :=
    (Lexical.agree_program hformed hT hlocated hresolved { table := s'.table } hreplays).1
  have hgenerate : Lexical.generate (.mk id .program o cs) s'.table =
      ((generate (.mk id .program o cs) s'.table).1, (generate (.mk id .program o cs) s'.table).2.1) := by
    unfold outcome at hsame
    unfold Lexical.generate generate
    rw [← hsame]
    rfl
  exact ⟨n1, n2, n3, _, s1, s2, s', haccepted, hlocated.replays hreplays, by rw [hgenerate, hcode], by rw [hgenerate, hfault]⟩

/-- A program in which a global, a variable of a function and one of a block have the same name, as have the counters of
two loops one behind the other. -/
def shadowedTree : Node :=
  let int : Specifiers := ⟨.int, true, false⟩
  let name (id : Nat) (x : String) : Node := .mk id (.name x none none) none []
  let declare (id : Nat) (x : String) (e : Node) : Node := .mk id (.variableDeclaration int) none
    [.mk (id + 1) (.declarator ⟨some x, [], none⟩) none [.mk (id + 2) (.initializerList false) none [e]]]
  let statement (id : Nat) (n : Node) : Node := .mk id .statement none [n]
  let loop (id : Nat) (e : Node) : Node := statement id (.mk (id + 1) (.forLoop true true false) none [
    declare (id + 2) "i" e, name (id + 6) "i", statement (id + 7) (.mk (id + 8) .assign none [name (id + 9) "i", name (id + 10) "x"])])
  .mk 0 .program none [
    declare 1 "x" (.mk 4 (.integer 7) none []),
    declare 5 "y" (name 8 "x"),
    .mk 9 (.function ⟨.main, int, some "main", []⟩) none [
      .mk 10 .parameters none [],
      .mk 11 .statements none [
        statement 12 (.mk 13 .assign none [name 14 "x", name 15 "y"]),
        statement 16 (declare 17 "x" (name 20 "x")),
        statement 21 (.mk 22 .statements none [statement 23 (declare 24 "x" (name 27 "y")), loop 30 (name 35 "x")]),
        loop 50 (name 55 "x"),
        statement 70 (.mk 71 .returnStmt none [name 72 "x"])]]]

theorem lexicalAddressing_of_compileNode_shadowed : shadowedTree.IsProgram ∧
    shadowedTree.Each (fun k => k.variable? ≠ some "printf" ∧ k.variable? ≠ some "scanf") ∧
    ∃ c n1 n2 n3 n' s1 s2 s', compileNode shadowedTree { stage := .done } = .ok c ∧ Diagnostic.errorCount c.found = 0 ∧
      c.fault = none ∧ Accepted shadowedTree n1 n2 n3 n' s1 s2 s' ∧ Located s'.table ∧
      c.code = some (Lexical.generate n' s'.table).2 ∧ c.fault = (Lexical.generate n' s'.table).1 := by
  have hresult : (compileNode shadowedTree { stage := .done }).toOption.map (fun c => (Diagnostic.errorCount c.found, c.fault)) =
      some (0, none) := by decide +kernel
  have hprogram : shadowedTree.IsProgram := ⟨rfl, by decide, by decide⟩
  have hfree : shadowedTree.Each (fun k => k.variable? ≠ some "printf" ∧ k.variable? ≠ some "scanf") := by
    simp [shadowedTree, Node.Each, Node.EachAll, Kind.variable?]
  obtain ⟨c, hc, heq⟩ := Option.map_eq_some_iff.1 hresult
  obtain ⟨he, hfault⟩ := Prod.mk.injEq .. ▸ heq
  have hc := toOption_eq_some.1 hc
  obtain ⟨n1, n2, n3, n', s1, s2, s', h⟩ := lexicalAddressing_of_compileNode hprogram hfree hc he
  exact ⟨hprogram, hfree, c, n1, n2, n3, n', s1, s2, s', hc, he, hfault, h⟩

end MiniC
