import MiniC.Proofs.Pass.Onward
import MiniC.Proofs.Scope.Table

/-!
# Runs without errors

A pass that finds no error in the end has found none on its way, and visits every node: none is marked. `Quiet`
is a run of this sort; it is taken apart like any run, and each part of it is quiet too.
-/

namespace MiniC

open SymbolTable Pass

variable {message : String} {name : Option String} {d : Nat} {b : Bool} {head : ParameterHead}

/-- Nothing is wrong so far. -/
structure PassState.Clean (s : PassState) : Prop where
  errors : s.errors = 0
  marks : s.marks = []

/-- A run with no error before and after it. -/
structure Quiet {α : Type} (m : PassM α) (s : PassState) (a : α) (s' : PassState) : Prop where
  runs : Runs m s a s'
  before : s.Clean
  after : s'.Clean

section

variable {α β : Type} {s s1 s' : PassState} {a : α} {b : β} {m : PassM α} {f : α → PassM β} {n n' : Node}
  {above ns ns' : List Node}

theorem PassState.Clean.between (h : s.Clean) (h' : s'.Clean) (o : Onward s s1) (o' : Onward s1 s') : s1.Clean := by
  have he : s1.errors = 0 := Nat.le_zero.1 (h'.errors ▸ o'.errors_le)
  exact ⟨he, o.clean he h.marks⟩

theorem Quiet.bind (h : Quiet (m >>= f) s b s') (hm : Moves Onward m := by grind)
    (hf : ∀ a, Moves Onward (f a) := by grind) : ∃ a s1, Quiet m s a s1 ∧ Quiet (f a) s1 b s' := by
  obtain ⟨a, s1, hr, hr'⟩ := runs_bind.1 h.runs
  have hc := h.before.between h.after (hm.runs hr) ((hf a).runs hr')
  exact ⟨a, s1, ⟨hr, h.before, hc⟩, ⟨hr', hc, h.after⟩⟩

theorem Quiet.unmarked {f : Bool → PassM α} (h : Quiet (isMarked n >>= f) s a s') : Quiet (f false) s a s' := by
  obtain ⟨b, s1, hr, hr'⟩ := runs_bind.1 h.runs
  obtain ⟨rfl, rfl⟩ : b = false ∧ s1 = s := by simpa [isMarked, h.before.marks] using hr
  exact ⟨hr', h.before, h.after⟩

theorem Quiet.not_error {u : Unit} (h : Quiet (error n above message) s u s') : False := by
  have hr := h.runs
  rw [Runs, outcome_error] at hr
  split at hr
  · have hafter := h.after.errors
    obtain rfl := (Prod.mk.inj hr).2
    simp [PassState.errors, Diagnostic.errorCount, Diagnostic.error] at hafter
  · cases (Prod.mk.inj hr).1

theorem Quiet.not_error_bind {f : Unit → PassM α} (h : Quiet (error n above message >>= f) s a s')
    (hf : ∀ u, Moves Onward (f u) := by grind) : False := by
  obtain ⟨_, _, herror, -⟩ := h.bind
  exact herror.not_error

/-- A warning before the rest of a run does not change the table. -/
theorem Quiet.warned {c : Prop} [Decidable c]
    (h : Quiet (if c then warning n message >>= fun _ => m else m) s a s') (hm : Moves Onward m := by grind) :
    ∃ s1, s1.table = s.table ∧ Quiet m s1 a s' := by
  split at h
  · obtain ⟨_, s1, hw, h⟩ := h.bind
    exact ⟨s1, (checked_warning.runs hw.runs).table, h⟩
  · exact ⟨s, rfl, h⟩

section

variable {judged kept : Symbol} {r : Option Nat × Bool} {d : Nat} {x : String}

/-- A declaration without an error: the symbol is put into the table or left out. -/
theorem quiet_verdict (h : Quiet (declare n above judged kept) s r s') :
    ∃ verdict, Runs (SymbolTable.verdict judged) s.table verdict s.table ∧
      (verdict = .accept ∧ (∃ v, r = (some v, false) ∧ Runs (match kept with
        | .object o => onTable (insertObject o)
        | .function f => onTable (insertFunction f)) s v s') ∨
      verdict = .ignore ∧ r = (none, false) ∧ s' = s) := by
  obtain ⟨verdict, s1, hv, hrest⟩ := runs_bind.1 h.runs
  obtain ⟨t, ht, rfl⟩ := runs_onTable.1 hv
  obtain rfl := table_of_verdict ht
  refine ⟨verdict, ht, ?_⟩
  cases verdict with
  | accept =>
    refine .inl ⟨rfl, ?_⟩
    cases kept <;>
    · obtain ⟨v, s2, hins, hlast⟩ := runs_bind.1 hrest
      obtain ⟨rfl, rfl⟩ := runs_pure.1 hlast
      exact ⟨v, rfl, hins⟩
  | ignore => exact .inr ⟨rfl, runs_pure.1 hrest⟩
  | undecided => simp at hrest
  | refuse message => exact (Quiet.not_error_bind ⟨hrest, h.before, h.after⟩).elim
  | blame message node place =>
    have hafter := h.after.errors
    simp [mark, report] at hrest
    simp [hrest.1, PassState.errors, Diagnostic.errorCount, Diagnostic.error] at hafter

theorem quiet_declare_snd (h : Quiet (declare n above judged kept) s r s') : r.2 = false := by
  obtain ⟨-, -, ⟨-, v, rfl, -⟩ | ⟨-, rfl, -⟩⟩ := quiet_verdict h <;> rfl

/-- The symbol was accepted beside the one that has its name, or it was left out because of it. -/
theorem quiet_declare_cases (hc : s.table.current = some d) (hname : judged.name = some x)
    (h : Quiet (declare n above judged kept) s r s') :
    (∀ v, s.table.named? d (some x) = some v →
        conflict (s.table.symbol v) judged = .ok .accept) ∧
      (∃ v, r = (some v, false) ∧ Runs (match kept with
        | .object o => onTable (insertObject o)
        | .function f => onTable (insertFunction f)) s v s') ∨
    (∃ v, s.table.named? d (some x) = some v ∧ conflict (s.table.symbol v) judged = .ok .ignore) ∧
      r = (none, false) ∧ s' = s := by
  have hlook : s.table.lookupIn d judged.name 0 = s.table.named? d (some x) := by
    have hvisible : ∀ v, (s.table.symbol v).isVisible 0 = true := fun v => by
      cases s.table.symbol v <;> simp [Symbol.isVisible]
    rw [hname, lookupIn_eq]
    simp [hvisible]
  obtain ⟨verdict, hv, hdone⟩ := quiet_verdict h
  simp only [SymbolTable.verdict, runs_bind, runs_currentScope hc, runs_get, and_assoc,
    exists_and_left, exists_eq_left, hlook] at hv
  obtain ⟨rfl, hins⟩ | ⟨rfl, hleft⟩ := hdone
  · exact .inl ⟨fun v hentry => by simpa [hentry] using hv, hins⟩
  · cases hentry : s.table.named? d (some x) with
    | none => simp [hentry] at hv
    | some v => exact .inr ⟨⟨v, rfl, by simpa [hentry] using hv⟩, hleft⟩

/-- A symbol that does not fit beside an old one is declared only under a new name. -/
theorem quiet_declare (hc : s.table.current = some d) (hname : judged.name = some x)
    (hold : ∀ v, s.table.named? d (some x) = some v →
      conflict (s.table.symbol v) judged ≠ .ok .accept ∧
        conflict (s.table.symbol v) judged ≠ .ok .ignore)
    (h : Quiet (declare n above judged kept) s r s') :
    s.table.named? d (some x) = none ∧ ∃ v, r = (some v, false) ∧
      Runs (match kept with
        | .object o => onTable (insertObject o)
        | .function f => onTable (insertFunction f)) s v s' := by
  obtain ⟨haccept, hins⟩ | ⟨⟨v, hv, hignore⟩, -, -⟩ := quiet_declare_cases hc hname h
  · refine ⟨Option.eq_none_iff_forall_ne_some.2 fun v hv => (hold v hv).1 (haccept v hv), hins⟩
  · exact ((hold v hv).2 hignore).elim

end

end

section

variable {s s' : PassState} {n n' : Node} {above cs ns ns' : List Node} {id : Nat} {kind : Kind} {o : Option ParseTree}

/-! ## Visits of children -/

/-- A pass visits nodes one after the other; the nodes above them are given. -/
structure Visits (visit : List Node → Node → PassM Node) (visitAll : List Node → List Node → PassM (List Node)) :
    Prop where
  nil_eq : ∀ above, visitAll above [] = pure []
  cons_eq : ∀ above n ns, visitAll above (n :: ns) = do
    let m ← visit above n
    let ms ← visitAll above ns
    return m :: ms
  onward : ∀ above n, Moves Onward (visit above n)

namespace Visits

variable {visit : List Node → Node → PassM Node} {visitAll : List Node → List Node → PassM (List Node)}
  (p : Visits visit visitAll)

include p

theorem onward_all : Moves Onward (visitAll above ns) := by
  induction ns with
  | nil => rw [p.nil_eq]; exact .pure _
  | cons n ns ih => rw [p.cons_eq]; exact .bind (p.onward _ _) fun _ => .bind ih fun _ => .pure _

theorem quiet_nil (h : Quiet (visitAll above []) s ns' s') : ns' = [] ∧ s' = s := by
  rw [p.nil_eq] at h
  exact runs_pure.1 h.runs

/-- The children of a node are visited, and the node is put together again. -/
theorem quiet_children {f : List Node → Node} (h : Quiet (visitAll above cs >>= fun cs' => pure (f cs')) s n' s') :
    ∃ cs', n' = f cs' ∧ Quiet (visitAll above cs) s cs' s' := by
  obtain ⟨cs', s1, hcs, h⟩ := h.bind p.onward_all
  obtain ⟨rfl, rfl⟩ := runs_pure.1 h.runs
  exact ⟨cs', rfl, hcs⟩

theorem quiet_cons (h : Quiet (visitAll above (n :: ns)) s ns' s') :
    ∃ m ms s1, ns' = m :: ms ∧ Quiet (visit above n) s m s1 ∧ Quiet (visitAll above ns) s1 ms s' := by
  rw [p.cons_eq] at h
  obtain ⟨m, s1, hm, h⟩ := h.bind (p.onward above n) fun _ => .bind p.onward_all fun _ => .pure _
  obtain ⟨ms, s2, hms, h⟩ := h.bind p.onward_all
  obtain ⟨rfl, rfl⟩ := runs_pure.1 h.runs
  exact ⟨m, ms, s1, rfl, hm, hms⟩

theorem quiet_one (h : Quiet (visitAll above [n]) s ns' s') : ∃ m, ns' = [m] ∧ Quiet (visit above n) s m s' := by
  obtain ⟨m, ms, s1, rfl, hm, hms⟩ := p.quiet_cons h
  obtain ⟨rfl, rfl⟩ := p.quiet_nil hms
  exact ⟨m, rfl, hm⟩

theorem quiet_singleton (h : Quiet (visit above n) s n' s') : Quiet (visitAll above [n]) s [n'] s' := by
  refine ⟨?_, h.before, h.after⟩
  simp only [p.cons_eq, p.nil_eq, runs_bind, runs_pure]
  exact ⟨n', s', h.runs, [], s', ⟨rfl, rfl⟩, rfl, rfl⟩

theorem quiet_append {ms : List Node} (h : Quiet (visitAll above (ns ++ ms)) s ns' s') :
    ∃ as bs s1, ns' = as ++ bs ∧ Quiet (visitAll above ns) s as s1 ∧ Quiet (visitAll above ms) s1 bs s' := by
  induction ns generalizing s ns' with
  | nil => exact ⟨[], ns', s, rfl, ⟨by simp [p.nil_eq], h.before, h.before⟩, h⟩
  | cons n ns ih =>
    obtain ⟨m, rest, s1, rfl, hm, hrest⟩ := p.quiet_cons h
    obtain ⟨as, bs, s2, rfl, has, hbs⟩ := ih hrest
    refine ⟨m :: as, bs, s2, rfl, ⟨?_, h.before, hbs.before⟩, hbs⟩
    simp only [p.cons_eq, runs_bind, runs_pure]
    exact ⟨m, s1, hm.runs, as, s2, has.runs, rfl, rfl⟩

/-- The children of a node in a scope of their own. -/
theorem quiet_scoped {isFunction : Bool} (h : Quiet (do
      onTable (openScope isFunction name)
      let children ← visitAll above cs
      onTable closeScope
      return Node.withChildren children n) s n' s') :
    ∃ t cs' s1, n' = n.withChildren cs' ∧ Runs (openScope isFunction name) s.table () t ∧
      Quiet (visitAll above cs) { s with table := t } cs' s1 ∧ Runs closeScope s1.table () s'.table := by
  obtain ⟨_, s1, hopen, h⟩ := h.bind (onward_onTable _) fun _ => .bind p.onward_all fun _ =>
    .bind (onward_onTable _) fun _ => .pure _
  obtain ⟨cs', s2, hcs, hrest⟩ := h.bind p.onward_all fun _ => .bind (onward_onTable _) fun _ => .pure _
  obtain ⟨t, ht, rfl⟩ := runs_onTable.1 hopen.runs
  obtain ⟨_, s3, hclose, hlast⟩ := runs_bind.1 hrest.runs
  obtain ⟨t', ht', rfl⟩ := runs_onTable.1 hclose
  obtain ⟨rfl, rfl⟩ := runs_pure.1 hlast
  exact ⟨t, cs', s2, rfl, ht, hcs, ht'⟩

end Visits
/-! ## The first pass -/

namespace Fill

theorem visits : Visits visit visitAll where
  nil_eq _ := by rw [visitAll]
  cons_eq _ _ _ := by rw [visitAll]
  onward := onward_visit

theorem quiet_nil (h : Quiet (visitAll above []) s ns' s') : ns' = [] ∧ s' = s := by simpa [visitAll] using h.runs

/-- Kinds of nodes at which only the children are visited. -/
def isPlain : Kind → Bool
  | .program | .string .. | .breakStmt | .continueStmt | .cast .. | .declarator _ | .function _ | .parameter _
  | .statements | .forLoop .. => false
  | _ => true

theorem quiet_visit_plain (hk : isPlain kind = true) (h : Quiet (visit above (.mk id kind o cs)) s n' s') :
    ∃ cs', n' = .mk id kind o cs' ∧ Quiet (visitAll (.mk id kind o cs :: above) cs) s cs' s' := by
  rw [visit] at h
  have h := h.unmarked
  refine visits.quiet_children ?_
  cases kind <;> first | exact h | cases hk

theorem quiet_plain (hk : isPlain kind = true) (h : Quiet (visitAll above [.mk id kind o cs]) s ns' s') :
    ∃ cs', ns' = [.mk id kind o cs'] ∧ Quiet (visitAll (.mk id kind o cs :: above) cs) s cs' s' := by
  obtain ⟨m, rfl, hm⟩ := visits.quiet_one h
  obtain ⟨cs', rfl, hcs⟩ := quiet_visit_plain hk hm
  exact ⟨cs', rfl, hcs⟩

/-- The children of a node in a scope that is made for them. -/
theorem quiet_scoped {isFunction : Bool} (hr : s.table.replaying = false) (hc : s.table.current = some d) (h : Quiet (do
      onTable (openScope isFunction name)
      let children ← visitAll above cs
      onTable closeScope
      return Node.withChildren children n) s n' s') :
    ∃ cs' s1, n' = n.withChildren cs' ∧
      Quiet (visitAll above cs) { s with table := s.table.made d isFunction name } cs' s1 ∧
      ∀ e, s1.table.current = some e → s'.table = s1.table.shut e := by
  obtain ⟨t, cs', s1, rfl, hopen, hcs, hclose⟩ := visits.quiet_scoped h
  obtain rfl := (runs_openScope hr hc).1 hopen
  exact ⟨cs', s1, rfl, hcs, fun e he => (runs_closeScope he).1 hclose⟩

theorem quiet_block (ho : opensScope above = true) (hr : s.table.replaying = false) (hc : s.table.current = some d)
    (h : Quiet (visit above (.mk id .statements o cs)) s n' s') :
    ∃ cs' s1, n' = .mk id .statements o cs' ∧
      Quiet (visitAll (.mk id .statements o cs :: above) cs) { s with table := s.table.made d false none } cs' s1 ∧
      ∀ e, s1.table.current = some e → s'.table = s1.table.shut e := by
  rw [visit] at h
  have h := h.unmarked
  simp only [ho, if_true] at h
  exact quiet_scoped hr hc h

/-- The body of a function has the scope of the function. -/
theorem quiet_body (ho : opensScope above = false) (h : Quiet (visit above (.mk id .statements o cs)) s n' s') :
    ∃ cs', n' = .mk id .statements o cs' ∧ Quiet (visitAll (.mk id .statements o cs :: above) cs) s cs' s' := by
  rw [visit] at h
  have h := h.unmarked
  simp only [ho, Bool.false_eq_true, if_false] at h
  exact visits.quiet_children h

theorem quiet_forLoop {a c : Bool} (hr : s.table.replaying = false) (hc : s.table.current = some d)
    (h : Quiet (visit above (.mk id (.forLoop a b c) o cs)) s n' s') :
    ∃ cs' s1, n' = .mk id (.forLoop a b c) o cs' ∧
      Quiet (visitAll (.mk id (.forLoop a b c) o cs :: above) cs) { s with table := s.table.made d false none } cs' s1 ∧
      ∀ e, s1.table.current = some e → s'.table = s1.table.shut e := by
  rw [visit] at h
  exact quiet_scoped hr hc h.unmarked

theorem quiet_jump (hk : kind = .breakStmt ∨ kind = .continueStmt)
    (h : Quiet (visit above (.mk id kind o cs)) s n' s') :
    n' = .mk id kind o cs ∧ s' = s ∧ (loopAround? above).isSome = true := by
  rw [visit] at h
  have h := h.unmarked
  cases hloop : loopAround? above with
  | some loop =>
    obtain rfl | rfl := hk <;>
    · simp only [hloop, Option.isNone_some, Bool.false_eq_true, if_false] at h
      obtain ⟨rfl, rfl⟩ := runs_pure.1 h.runs
      exact ⟨rfl, rfl, rfl⟩
  | none =>
    obtain rfl | rfl := hk <;>
    · simp only [hloop, Option.isNone_none, if_true] at h
      exact h.not_error_bind.elim

/-- An object is entered, and unless it is refused the children of its node are visited. -/
def entering (n : Node) (above : List Node) (name : Option String) (type : CType) (byDeclarator : Bool)
    (cs inside : List Node) (f : Option Nat → List Node → Node) : PassM Node := do
  let (symbol, refused) ← enterObject n above name type byDeclarator
  if refused then return n
  let children ← visitAll inside cs
  return f symbol children

section

variable {name : Option String} {type : CType} {byDeclarator : Bool} {f : Option Nat → List Node → Node}
  {inside : List Node}

@[grind ←] theorem onward_entering : Moves Onward (entering n above name type byDeclarator cs inside f) := by
  grind [entering]

theorem quiet_entering (h : Quiet (entering n above name type byDeclarator cs inside f) s n' s') :
    ∃ v s1 cs', Quiet (enterObject n above name type byDeclarator) s (v, false) s1 ∧ n' = f v cs' ∧
      Quiet (visitAll inside cs) s1 cs' s' := by
  obtain ⟨⟨v, refused⟩, s1, henter, h⟩ := h.bind
  obtain ⟨position, s2, -, hdeclare⟩ := Quiet.bind henter
  obtain rfl : refused = false := quiet_declare_snd hdeclare
  obtain ⟨cs', rfl, hcs⟩ := visits.quiet_children h
  exact ⟨v, s1, cs', henter, rfl, hcs⟩

end

theorem quiet_declarator {head : DeclaratorHead} (h : Quiet (visit above (.mk id (.declarator head) o cs)) s n' s') :
    ∃ s1 type, Node.declaratorType (above.head?.map Node.kind) head = .ok type ∧ s1.table = s.table ∧
      Quiet (entering (.mk id (.declarator head) o cs) above head.name type true cs
        (.mk id (.declarator head) o cs :: above) fun symbol cs' => .mk id (.declarator { head with symbol }) o cs')
        s1 n' s' := by
  have hmoves : Moves Onward (do
      let type ← lift (Node.declaratorType (above.head?.map Node.kind) head)
      entering (.mk id (.declarator head) o cs) above head.name type true cs (.mk id (.declarator head) o cs :: above)
        fun symbol cs' => .mk id (.declarator { head with symbol }) o cs') := by grind
  rw [visit] at h
  have h := h.unmarked
  cases hspec : (above.head?.map Node.kind).bind Kind.specifiers? with
  | none =>
    simp only [hspec] at h
    obtain ⟨_, _, hthrow, -⟩ := runs_bind.1 h.runs
    exact (runs_throw.1 hthrow).elim
  | some spec =>
    simp only [hspec, pure_bind] at h
    obtain ⟨s1, hs1, h⟩ := Quiet.warned h hmoves
    obtain ⟨type, s2, hlift, henter⟩ := h.bind
    obtain ⟨htype, rfl⟩ := runs_pass_lift.1 hlift.runs
    exact ⟨s2, type, htype, hs1, henter⟩

/-- A parameter that is left out is `void` without a name, and one without a name is not in front of a body. -/
theorem quiet_checkParameter (h : Quiet (checkParameter n above head) s b s') :
    s'.table = s.table ∧ isVoid head = !b ∧ (b = false → head.name = none) ∧
      (b = true → head.name = none → above[1]?.any (·.kind.isDefinition) = false) := by
  unfold checkParameter at h
  dsimp only at h
  split at h
  next hvoid =>
    split at h
    next hname =>
      split at h
      · exact h.not_error_bind.elim
      · obtain ⟨rfl, rfl⟩ := runs_pure.1 h.runs
        exact ⟨rfl, hvoid, fun _ => Option.isNone_iff_eq_none.1 hname, by simp⟩
    next => exact h.not_error_bind.elim
  next hvoid =>
    split at h
    · exact h.not_error_bind.elim
    next hdefined =>
      obtain ⟨s1, hs1, h⟩ := Quiet.warned h
      obtain ⟨rfl, rfl⟩ := runs_pure.1 h.runs
      refine ⟨hs1, by simpa using hvoid, by simp, fun _ hname => ?_⟩
      simpa [hname] using hdefined

/-- A parameter of a function without a body is only looked at; one of a function with a body is entered. -/
theorem quiet_parameter (h : Quiet (visit above (.mk id (.parameter head) o cs)) s n' s') :
    (isVoid head = true ∧ head.name = none ∧ n' = .mk id (.parameter head) o cs ∧ s'.table = s.table) ∨
    (∃ s1 cs', above[1]?.any (·.kind.isDeclaration) = true ∧ s1.table = s.table ∧ n' = .mk id (.parameter head) o cs' ∧
      Quiet (visitAll (.mk id (.parameter head) o cs :: above) cs) s1 cs' s') ∨
    (∃ s1, isVoid head = false ∧ above[1]?.any (·.kind.isDeclaration) = false ∧
      (head.name = none → above[1]?.any (·.kind.isDefinition) = false) ∧ s1.table = s.table ∧
      Quiet (entering (.mk id (.parameter (decay head)) o cs) above (decay head).name (parameterType (decay head)) false
        cs (.mk id (.parameter head) o cs :: above) fun _ cs' => .mk id (.parameter (decay head)) o cs') s1 n' s') := by
  rw [visit] at h
  obtain ⟨b, s1, hb, h⟩ := h.unmarked.bind
  obtain ⟨hs1, hvoid, hfalse, htrue⟩ := quiet_checkParameter hb
  cases b with
  | false =>
    obtain ⟨rfl, rfl⟩ := runs_pure.1 h.runs
    exact .inl ⟨hvoid, hfalse rfl, rfl, hs1⟩
  | true =>
    cases hdecl : above[1]?.any (·.kind.isDeclaration) with
    | true =>
      simp only [hdecl, Bool.not_true, Bool.false_eq_true, if_false, if_true] at h
      obtain ⟨cs', rfl, hcs⟩ := visits.quiet_children h
      exact .inr (.inl ⟨s1, cs', rfl, hs1, rfl, hcs⟩)
    | false =>
      simp only [hdecl, Bool.not_true, Bool.false_eq_true, if_false] at h
      exact .inr (.inr ⟨s1, hvoid, rfl, htrue rfl, hs1, h⟩)

/-- The head of a function is entered, then come its parts. -/
theorem quiet_function {head : FunctionHead} (h : Quiet (visit above (.mk id (.function head) o cs)) s n' s') :
    ∃ s1 s2, s1.table = s.table ∧ Quiet (enterFunction (.mk id (.function head) o cs) above head) s1 false s2 ∧
      if head.form.isDefinition then Quiet (do
        onTable (openScope true head.name)
        let children ← visitAll (.mk id (.function head) o cs :: above) cs
        onTable closeScope
        return Node.withChildren children (.mk id (.function head) o cs)) s2 n' s'
      else ∃ cs', n' = .mk id (.function head) o cs' ∧ Quiet (visitAll (.mk id (.function head) o cs :: above) cs) s2 cs' s' := by
  rw [visit] at h
  have h := h.unmarked
  cases hform : head.form.isDefinition <;>
  · simp only [hform, if_true, Bool.false_eq_true, if_false] at h
    obtain ⟨s1, hs1, h⟩ := Quiet.warned h
    obtain ⟨refused, s2, henter, h⟩ := h.bind
    obtain ⟨position, s3, -, hrest⟩ := Quiet.bind henter
    obtain ⟨r, s4, hdeclare, hlast⟩ := hrest.bind
    obtain ⟨rfl, -⟩ := runs_pure.1 hlast.runs
    rw [quiet_declare_snd hdeclare] at henter h
    refine ⟨s1, s2, hs1, henter, ?_⟩
    first | exact h | exact visits.quiet_children h

theorem quiet_program (h : Quiet (run (.mk id .program o cs)) s n' s') :
    ∃ cs' s1, n' = .mk id .program o cs' ∧ Quiet (visitAll [.mk id .program o cs] cs) s cs' s1 ∧
      s'.table = s1.table.reset := by
  rw [run, visit] at h
  obtain ⟨cs', s1, hcs, hlast⟩ := h.unmarked.bind (onward_visitAll _ _) fun _ =>
    .bind (onward_modifyTable _) fun _ => .pure _
  have hruns := runs_modify_bind.1 hlast.runs
  obtain ⟨rfl, rfl⟩ := runs_pure.1 hruns
  exact ⟨cs', s1, rfl, hcs, rfl⟩

end Fill

/-! ## The second pass -/

namespace Resolve

theorem visits : Visits visit visitAll where
  nil_eq _ := by rw [visitAll]
  cons_eq _ _ _ := by rw [visitAll]
  onward := onward_visit

theorem quiet_nil (h : Quiet (visitAll above []) s ns' s') : ns' = [] ∧ s' = s := by simpa [visitAll] using h.runs

/-- Kinds of nodes at which only the children are visited. -/
def isPlain : Kind → Bool
  | .includeFile .. | .parameter _ | .declarator _ | .name .. | .function _ | .call .. | .statements
  | .forLoop .. => false
  | _ => true

theorem quiet_visit_plain (hk : isPlain kind = true) (h : Quiet (visit above (.mk id kind o cs)) s n' s') :
    ∃ cs', n' = .mk id kind o cs' ∧ Quiet (visitAll (.mk id kind o cs :: above) cs) s cs' s' := by
  refine visits.quiet_children ?_
  unfold visit at h
  cases kind <;> first | exact h.unmarked | cases hk

theorem quiet_plain (hk : isPlain kind = true) (h : Quiet (visitAll above [.mk id kind o cs]) s ns' s') :
    ∃ cs', ns' = [.mk id kind o cs'] ∧ Quiet (visitAll (.mk id kind o cs :: above) cs) s cs' s' := by
  obtain ⟨m, rfl, hm⟩ := visits.quiet_one h
  obtain ⟨cs', rfl, hcs⟩ := quiet_visit_plain hk hm
  exact ⟨cs', rfl, hcs⟩

theorem quiet_block (ho : Fill.opensScope above = true) (h : Quiet (visit above (.mk id .statements o cs)) s n' s') :
    ∃ t cs' s1, n' = .mk id .statements o cs' ∧ Runs (openScope false none) s.table () t ∧
      Quiet (visitAll (.mk id .statements o cs :: above) cs) { s with table := t } cs' s1 ∧
      Runs closeScope s1.table () s'.table := by
  unfold visit at h
  have h := h.unmarked
  simp only [ho, if_true] at h
  exact visits.quiet_scoped h

theorem quiet_body (ho : Fill.opensScope above = false) (h : Quiet (visit above (.mk id .statements o cs)) s n' s') :
    ∃ cs', n' = .mk id .statements o cs' ∧ Quiet (visitAll (.mk id .statements o cs :: above) cs) s cs' s' := by
  unfold visit at h
  have h := h.unmarked
  simp only [ho, Bool.false_eq_true, if_false] at h
  exact visits.quiet_children h

theorem quiet_forLoop {a c : Bool} (h : Quiet (visit above (.mk id (.forLoop a b c) o cs)) s n' s') :
    ∃ t cs' s1, n' = .mk id (.forLoop a b c) o cs' ∧ Runs (openScope false none) s.table () t ∧
      Quiet (visitAll (.mk id (.forLoop a b c) o cs :: above) cs) { s with table := t } cs' s1 ∧
      Runs closeScope s1.table () s'.table := by
  unfold visit at h
  exact visits.quiet_scoped h.unmarked

theorem quiet_function {head : FunctionHead} (hform : head.form.isDefinition = true)
    (h : Quiet (visit above (.mk id (.function head) o cs)) s n' s') :
    ∃ t cs' s1, n' = .mk id (.function head) o cs' ∧ Runs (openScope true head.name) s.table () t ∧
      Quiet (visitAll (.mk id (.function head) o cs :: above) cs) { s with table := t } cs' s1 ∧
      Runs closeScope s1.table () s'.table := by
  unfold visit at h
  have h := h.unmarked
  simp only [hform, if_true] at h
  exact visits.quiet_scoped h

theorem quiet_name {x : String} {type : Option CType} {v : Option Nat}
    (h : Quiet (visit above (.mk id (.name x type v) o cs)) s n' s') :
    ∃ w stage, s.table.lookup (some x) 1 = some w ∧ (s.table.symbol w).seen = .ok stage ∧
      n' = .mk id (.name x (some (s.table.symbol w).type) (some w)) o cs ∧ s'.table = s.table := by
  unfold visit at h
  have h := h.unmarked
  simp only [resolveName] at h
  have hruns := runs_get_bind.1 h.runs
  cases hlook : s.table.lookup (some x) 1 with
  | none =>
    simp only [hlook] at hruns
    exact (Quiet.not_error_bind ⟨hruns, h.before, h.after⟩).elim
  | some w =>
    simp only [hlook] at hruns
    obtain ⟨stage, hstage, hruns⟩ := runs_pass_lift_bind.1 hruns
    obtain ⟨s1, hs1, h⟩ := Quiet.warned ⟨hruns, h.before, h.after⟩
    obtain ⟨rfl, rfl⟩ := runs_pure.1 h.runs
    exact ⟨w, stage, rfl, hstage, rfl, hs1⟩

theorem quiet_resolveCall {r : Option Callee} (h : Quiet (resolveCall n above name) s r s') :
    ∃ w f, s.table.lookup name 1 = some w ∧ s.table.symbol w = .function f ∧ f.form.isDefinition = true ∧
      r = some (calleeOf f) ∧ s' = s := by
  have hruns := runs_get_bind.1 h.runs
  cases hlook : s.table.lookup name 1 with
  | none =>
    simp only [hlook] at hruns
    exact (Quiet.not_error_bind ⟨hruns, h.before, h.after⟩).elim
  | some w =>
    simp only [hlook] at hruns
    cases hsymbol : s.table.symbol w with
    | object o =>
      simp only [hsymbol] at hruns
      exact (Quiet.not_error_bind ⟨hruns, h.before, h.after⟩).elim
    | function f =>
      simp only [hsymbol] at hruns
      split at hruns
      · rename_i hform
        obtain ⟨rfl, rfl⟩ := runs_pure.1 hruns
        exact ⟨w, f, rfl, hsymbol, hform, rfl, rfl⟩
      · exact (Quiet.not_error_bind ⟨hruns, h.before, h.after⟩).elim

theorem quiet_call {callee : Option Callee} {pieces : Option (List Piece)}
    (h : Quiet (visit above (.mk id (.call name callee pieces) o cs)) s n' s') :
    ∃ w f cs', s.table.lookup name 1 = some w ∧ s.table.symbol w = .function f ∧ f.form.isDefinition = true ∧
      n' = .mk id (.call name (some (calleeOf f)) pieces) o cs' ∧
      Quiet (visitAll (.mk id (.call name callee pieces) o cs :: above) cs) s cs' s' := by
  unfold visit at h
  obtain ⟨r, s1, hr, hrest⟩ := h.unmarked.bind
  obtain ⟨w, f, hlook, hsymbol, hform, rfl, rfl⟩ := quiet_resolveCall hr
  obtain ⟨cs', rfl, hcs⟩ := visits.quiet_children hrest
  exact ⟨w, f, cs', hlook, hsymbol, hform, rfl, hcs⟩

theorem runs_entered {v : Nat} (h : Runs (entered name) s v s') : s.table.lookup name 0 = some v ∧ s' = s := by
  have hruns := runs_get_bind.1 h
  cases hlook : s.table.lookup name 0 with
  | none => simp [hlook] at hruns
  | some w =>
    simp only [hlook] at hruns
    obtain ⟨rfl, rfl⟩ := runs_pure.1 hruns
    exact ⟨rfl, rfl⟩

theorem quiet_declarator {head : DeclaratorHead} (h : Quiet (visit above (.mk id (.declarator head) o cs)) s n' s') :
    ∃ v cs' s1, s.table.lookup head.name 0 = some v ∧ n' = .mk id (.declarator head) o cs' ∧
      Quiet (visitAll (.mk id (.declarator head) o cs :: above) cs)
        { s with table := s.table.modifySymbol v (Symbol.setSeen 1) } cs' s1 ∧
      s'.table = s1.table.modifySymbol v (Symbol.setSeen 2) := by
  unfold visit at h
  obtain ⟨v, s1, hv, h⟩ := h.unmarked.bind
  obtain ⟨_, s2, h1, h⟩ := h.bind
  obtain ⟨cs', s3, hcs, hrest⟩ := h.bind
  obtain ⟨hlook, rfl⟩ := runs_entered hv.runs
  obtain rfl := runs_modify.1 h1.runs
  have hlast := runs_modify_bind.1 hrest.runs
  obtain ⟨rfl, rfl⟩ := runs_pure.1 hlast
  exact ⟨v, cs', s3, hlook, rfl, hcs, rfl⟩

theorem quiet_parameter (habove : above[1]?.any (·.kind.isDeclaration) = false) (hname : head.name.isSome = true)
    (h : Quiet (visit above (.mk id (.parameter head) o cs)) s n' s') :
    ∃ v, s.table.lookup head.name 0 = some v ∧ n' = .mk id (.parameter head) o cs ∧
      s'.table = s.table.modifySymbol v (Symbol.setSeen 2) := by
  unfold visit at h
  have h := h.unmarked
  simp only [habove, hname, Bool.not_false, Bool.and_self, if_true] at h
  obtain ⟨v, s1, hv, hrest⟩ := runs_bind.1 h.runs
  obtain ⟨hlook, rfl⟩ := runs_entered hv
  have hlast := runs_modify_bind.1 hrest
  obtain ⟨rfl, rfl⟩ := runs_pure.1 hlast
  exact ⟨v, hlook, rfl, rfl⟩

/-- A parameter of a declaration, or one without a name, is left as it is. -/
theorem quiet_unnamed (hnone : above[1]?.any (·.kind.isDeclaration) = true ∨ head.name = none)
    (h : Quiet (visit above (.mk id (.parameter head) o cs)) s n' s') :
    n' = .mk id (.parameter head) o cs ∧ s' = s := by
  unfold visit at h
  have h := h.unmarked
  have hcond : (!above[1]?.any (·.kind.isDeclaration) && head.name.isSome) = false := by
    obtain hnone | hnone := hnone <;> simp [hnone]
  simp only [hcond, Bool.false_eq_true, if_false] at h
  exact runs_pure.1 h.runs

theorem quiet_declaration {head : FunctionHead} (hform : head.form.isDefinition = false)
    (h : Quiet (visit above (.mk id (.function head) o cs)) s n' s') :
    ∃ cs', n' = .mk id (.function head) o cs' ∧ Quiet (visitAll (.mk id (.function head) o cs :: above) cs) s cs' s' := by
  unfold visit at h
  have h := h.unmarked
  simp only [hform, Bool.false_eq_true, if_false] at h
  exact visits.quiet_children h

theorem quiet_program (h : Quiet (run (.mk id .program o cs)) s n' s') :
    ∃ cs' s1, n' = .mk id .program o cs' ∧
      Quiet (visitAll [.mk id .program o cs] cs) { s with table := s.table.startReplay } cs' s1 ∧
      s'.table = s1.table.reset ∧ definesMain [] (.mk id .program o cs) = true := by
  have hreset := onward_modifyTable reset
  have hruns := runs_modify_bind.1 h.runs
  have hruns := runs_get_bind.1 hruns
  have hq : Quiet _ { s with table := s.table.startReplay } n' s' :=
    ⟨hruns, ⟨h.before.errors, h.before.marks⟩, h.after⟩
  obtain ⟨m, s1, hm, hlast⟩ := hq.bind
  obtain ⟨cs', rfl, hcs'⟩ := quiet_visit_plain rfl hm
  have hlast := runs_modify_bind.1 hlast.runs
  split at hlast
  · obtain ⟨_, s2, herror, hlast⟩ := runs_bind.1 hlast
    obtain ⟨rfl, rfl⟩ := runs_pure.1 hlast
    exact (Quiet.not_error ⟨herror, ⟨hcs'.after.errors, hcs'.after.marks⟩, h.after⟩).elim
  · rename_i hdefined
    obtain ⟨rfl, rfl⟩ := runs_pure.1 hlast
    have hmarks : s.marks = [] := h.before.marks
    exact ⟨cs', s1, rfl, hcs', rfl, by simpa [hmarks] using hdefined⟩

end Resolve

end

end MiniC
