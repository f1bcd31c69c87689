import MiniC.Proofs.Pass.Accepted
import MiniC.Proofs.Syntax.Parts

/-!
# What the check of types makes sure of

A check without errors has looked at every node of the tree that it leaves. `Node.Typed` is what it has found there: the
operands of a logic operator are integers.
-/

namespace MiniC

namespace Node

/-- The value of an operand is an integer. -/
def IntAt (n : Node) (i : Nat) : Prop := ∃ t, Check.valueOf n i = .ok t ∧ t.agrees .int = .ok true

/-- What the check of types makes sure of at a node. -/
def Typed (n : Node) : Prop :=
  match n.kind with
  | .logic _ => n.IntAt 0 ∧ n.IntAt 1
  | _ => True

/-- Every node of the tree has been checked. -/
def AllTyped (n : Node) : Prop := ∀ m ∈ n.parts, m.Typed

variable {n : Node}

theorem allTyped_iff : n.AllTyped ↔ n.Typed ∧ ∀ c ∈ n.children, c.AllTyped := by
  constructor
  · intro h
    exact ⟨h n (mem_parts_self n), fun c hc m hm => h m (mem_parts_of_child hc hm)⟩
  · rintro ⟨hn, hcs⟩ m hm
    obtain rfl | ⟨c, hc, hm⟩ := mem_parts.1 hm
    · exact hn
    · exact hcs c hc m hm

/-- A list of initialisers is in order if its elements are. -/
theorem allTyped_list {id : Nat} {isArray : Bool} {o : Option ParseTree} {cs : List Node} (h : ∀ c ∈ cs, c.AllTyped) :
    (Node.mk id (.initializerList isArray) o cs).AllTyped := allTyped_iff.2 ⟨trivial, h⟩

end Node

/-! ## Checks without errors -/

section

variable {α β : Type} {s s' : PassState} {a : α} {b : β} {m : PassM α} {n n' : Node} {above : List Node} {message : String}

theorem Quiet.lift {e : Except Fault α} {f : α → PassM β} (h : Quiet (Pass.lift e >>= f) s b s') :
    ∃ a, e = .ok a ∧ Quiet (f a) s b s' := by
  obtain ⟨a, ha, hr⟩ := runs_pass_lift_bind.1 h.runs
  exact ⟨a, ha, hr, h.before, h.after⟩

/-- A run without errors is past what would end it with one. -/
theorem Quiet.refused {c : Prop} [Decidable c] {x : α}
    (h : Quiet (if c then Pass.error n above message >>= fun _ => pure x else m) s a s') : ¬ c ∧ Quiet m s a s' := by
  split at h
  next hc =>
    obtain ⟨_, _, herror, -⟩ := h.bind checked_error.onward fun _ => .pure _
    exact herror.not_error.elim
  next hc => exact ⟨hc, h⟩

/-- The last test of a check did not fail. -/
theorem Quiet.passed {c : Prop} [Decidable c] {u : Unit} (h : Quiet (if c then Pass.error n above message else pure ()) s u s') :
    ¬ c := by
  split at h
  next hc => exact h.not_error.elim
  next hc => exact hc

namespace Check

variable {u : Unit}

theorem quiet_hasVoid {ts : List CType} {found : Bool} (h : Quiet (hasVoid n above ts) s found s') : found = false := by
  induction ts with
  | nil => exact (runs_pure.1 h.runs).1
  | cons t ts ih =>
    unfold hasVoid at h
    obtain ⟨isVoid, -, h⟩ := h.lift
    exact ih h.refused.2

theorem quiet_checkLogic {op : LogicOp} (h : Quiet (checkLogic n above op) s u s') : n.IntAt 0 ∧ n.IntAt 1 := by
  unfold checkLogic at h
  obtain ⟨left, hleft, h⟩ := h.lift
  obtain ⟨right, hright, h⟩ := h.lift
  obtain ⟨found, s1, hvoid, h⟩ := h.bind (checked_hasVoid _).onward fun _ => by grind
  rw [quiet_hasVoid hvoid] at h
  obtain ⟨same, -, h⟩ := h.lift
  obtain ⟨-, h⟩ := h.refused
  obtain ⟨leftInt, hleftInt, h⟩ := h.lift
  obtain ⟨rightInt, hrightInt, h⟩ := h.lift
  obtain ⟨rfl, rfl⟩ : leftInt = true ∧ rightInt = true := by simpa using h.passed
  exact ⟨⟨left, hleft, hleftInt⟩, ⟨right, hright, hrightInt⟩⟩

theorem quiet_checkNode (h : Quiet (checkNode n above) s n' s') : n.Typed := by
  unfold checkNode at h
  unfold Node.Typed
  split at h
  case h_7 op heq =>
    obtain ⟨_, s1, hlogic, -⟩ := h.bind (checked_checkLogic op).onward fun _ => .pure _
    rw [heq]
    exact quiet_checkLogic hlogic
  all_goals grind

/-! ## Lists of initialisers -/

/-- A list of initialisers that is in order. -/
def ListTyped (l : Node) : Prop := l.kind.isInitializerList = true ∧ l.AllTyped

theorem ListTyped.withChildren {l : Node} {cs : List Node} (h : ListTyped l) (hcs : ∀ c ∈ cs, c.AllTyped) :
    ListTyped (l.withChildren cs) := by
  obtain ⟨id, kind, o, _⟩ := l
  obtain ⟨hlist, -⟩ := h
  cases kind with
  | initializerList isArray => exact ⟨rfl, Node.allTyped_list hcs⟩
  | _ => cases hlist

theorem listTyped_wrap (list : Node) {element : Node} (h : element.AllTyped) : Gives ListTyped (wrap list element) := by
  unfold wrap
  split
  next hlist => exact .pure ⟨hlist, h⟩
  next => exact .bind fun _ => .bind fun _ => .pure ⟨rfl, Node.allTyped_list (by simpa using h)⟩

theorem allTyped_checkFirst {check : Node → PassM Node} (hcheck : ∀ n, n.AllTyped → Gives Node.AllTyped (check n)) (count : Nat)
    {elements : List Node} (h : ∀ e ∈ elements, e.AllTyped) :
    Gives (fun es => ∀ e ∈ es, e.AllTyped) (checkFirst check count elements) := by
  induction elements generalizing count with
  | nil => cases count <;> exact .pure h
  | cons element rest ih =>
    obtain ⟨helement, hrest⟩ := List.forall_mem_cons.1 h
    cases count with
    | zero => exact .pure h
    | succ count =>
      unfold checkFirst
      exact (hcheck element helement).andThen fun e he => (ih count hrest).andThen fun es hes =>
        .pure (List.forall_mem_cons.2 ⟨he, hes⟩)

theorem listTyped_checkList (t : Target) (below level : Nat) (above : List Node) {list : Node} (h : ListTyped list) :
    Gives ListTyped (checkList t below level above list) := by
  induction below generalizing level above list with
  | zero =>
    unfold checkList
    refine .bind fun extent => ?_
    dsimp only
    split
    · exact .bind fun _ => .bind fun _ => .pure h
    · exact .bind fun _ => .pure h
  | succ below ih =>
    have hdone : ∀ covered, Gives ListTyped (do
        let children ← checkFirst (fun element => do
          let inner ← wrap list element
          checkList t below (level + 1) (list :: above) inner) covered list.children
        return list.withChildren children) := by
      intro covered
      refine (allTyped_checkFirst ?_ covered (Node.allTyped_iff.1 h.2).2).andThen fun cs hcs => .pure (h.withChildren hcs)
      intro element helement
      exact (listTyped_wrap list helement).andThen fun inner hinner => (ih _ _ hinner).mono fun _ hl => hl.2
    unfold checkList
    refine .bind fun extent => ?_
    dsimp only
    split
    · exact .bind fun _ => hdone _
    · exact hdone _

/-! ## Trees -/

theorem allTyped_replaceInitializer {list : Node} {head : DeclaratorHead} (hkind : n.kind = .declarator head)
    (hcs : ∀ c ∈ n.children, c.AllTyped) (hlist : list.AllTyped) : (replaceInitializer n list).AllTyped := by
  obtain ⟨id, kind, o, cs⟩ := n
  obtain rfl : kind = .declarator head := hkind
  refine Node.allTyped_iff.2 ⟨trivial, fun c hc => ?_⟩
  obtain ⟨d, hd, rfl⟩ := List.mem_map.1 hc
  split
  · exact hlist
  · exact hcs d hd

/-- Nothing stands below a node without parts, and nothing is asked of it. -/
theorem allTyped_leaf {id : Nat} {kind : Kind} {o : Option ParseTree} {cs : List Node} (hparts : hasNoParts kind = true)
    (hadmits : kind.admits (cs.map Node.kind) = true) : (Node.mk id kind o cs).AllTyped := by
  obtain rfl : cs = [] := by
    cases kind <;> first | simpa [Kind.admits] using hadmits | cases hparts
  refine Node.allTyped_iff.2 ⟨?_, fun c hc => by cases hc⟩
  cases kind <;> first | exact trivial | cases hparts

/-- A node is in order after its check if its children are. -/
theorem allTyped_checkNode (hcs : ∀ c ∈ n.children, c.AllTyped) (h : Quiet (checkNode n above) s n' s') : n'.AllTyped := by
  have hsame : n.AllTyped := Node.allTyped_iff.2 ⟨quiet_checkNode h, hcs⟩
  have hgives : Gives Node.AllTyped (checkNode n above) := by
    unfold checkNode
    split
    case h_2 head hkind =>
      refine (replaces_checkDeclarator (R := fun _ l' => l'.AllTyped) above head ?_).andThen fun r hr => ?_
      · intro list hlist t below inside
        obtain ⟨hmem, hkind⟩ := mem_of_initializer? hlist
        exact (listTyped_checkList t below 1 inside ⟨hkind, hcs list hmem⟩).mono fun _ hl => hl.2
      · cases r with
        | none => exact .pure hsame
        | some l' =>
          obtain ⟨_, -, hl⟩ := hr l' rfl
          exact .pure (allTyped_replaceInitializer hkind hcs hl)
    case h_3 called callee pieces hkind =>
      have hcall : ∀ pieces', (n.withKind (.call called callee pieces')).AllTyped := by
        intro pieces'
        cases n
        exact Node.allTyped_iff.2 ⟨trivial, hcs⟩
      refine .bind fun r => ?_
      cases r <;> exact .pure (hcall _)
    case h_14 => exact .pure hsame
    all_goals exact .bind fun _ => .pure hsame
  exact hgives s n' s' h.runs

/-- A node with parts is checked after its children. -/
theorem quiet_visit {id : Nat} {kind : Kind} {o : Option ParseTree} {cs : List Node} (hparts : hasNoParts kind = false)
    (h : Quiet (visit above (.mk id kind o cs)) s n' s') :
    ∃ cs' s1, Quiet (visitAll (.mk id kind o cs :: above) cs) s cs' s1 ∧ Quiet (checkNode (.mk id kind o cs') above) s1 n' s' := by
  have hrest : ∀ cs', Moves Onward (do
      if needsSoundChildren kind then
        if ← Pass.anyMarked cs' then return .mk id kind o cs'
      checkNode (.mk id kind o cs') above) := by
    intro cs'
    grind
  have hvisit : Quiet (do
      let cs' ← visitAll (.mk id kind o cs :: above) cs
      if needsSoundChildren kind then
        if ← Pass.anyMarked cs' then return .mk id kind o cs'
      checkNode (.mk id kind o cs') above) s n' s' := by
    unfold visit at h
    simp only [hparts, Bool.false_eq_true, if_false] at h
    split at h
    · exact h.unmarked
    · exact h
  obtain ⟨cs', s1, hcs, h⟩ := hvisit.bind (checked_visitAll _ _).onward hrest
  refine ⟨cs', s1, hcs, ?_⟩
  split at h
  · obtain ⟨marked, s2, hr, hr'⟩ := runs_bind.1 h.runs
    obtain ⟨hmarked, rfl⟩ : (marked = cs'.any fun _ => false) ∧ s2 = s1 := by simpa [Pass.anyMarked, h.before.marks] using hr
    obtain rfl : marked = false := hmarked.trans (List.any_eq_false.2 (by simp))
    exact ⟨hr', h.before, h.after⟩
  · exact h

mutual

theorem allTyped_visit (n : Node) (hf : n.formed = true) {above : List Node} {n' : Node} {s s' : PassState}
    (h : Quiet (visit above n) s n' s') : n'.AllTyped := by
  match n with
  | .mk id kind o cs =>
    obtain ⟨hadmits, hcs⟩ := Bool.and_eq_true_iff.1 hf
    by_cases hparts : hasNoParts kind = true
    · have hr := h.runs
      simp only [visit, hparts, if_true, runs_pure] at hr
      obtain ⟨rfl, -⟩ := hr
      exact allTyped_leaf hparts hadmits
    · obtain ⟨cs', s1, hvisit, hcheck⟩ := quiet_visit (Bool.eq_false_iff.2 hparts) h
      exact allTyped_checkNode (allTyped_visitAll cs hcs hvisit) hcheck

theorem allTyped_visitAll (ns : List Node) (hf : Node.formedAll ns = true) {above ns' : List Node} {s s' : PassState}
    (h : Quiet (visitAll above ns) s ns' s') : ∀ n' ∈ ns', n'.AllTyped := by
  match ns with
  | [] =>
    rw [visitAll] at h
    obtain ⟨rfl, -⟩ := runs_pure.1 h.runs
    exact fun _ hn => by cases hn
  | n :: ns =>
    obtain ⟨hn, hns⟩ := Bool.and_eq_true_iff.1 hf
    rw [visitAll] at h
    obtain ⟨m, s1, hm, h⟩ := h.bind (checked_visit above n).onward fun _ => .bind (checked_visitAll above ns).onward fun _ => .pure _
    obtain ⟨ms, s2, hms, h⟩ := h.bind (checked_visitAll above ns).onward fun _ => .pure _
    obtain ⟨rfl, -⟩ := runs_pure.1 h.runs
    exact List.forall_mem_cons.2 ⟨allTyped_visit n hn hm, allTyped_visitAll ns hns hms⟩

end

end Check

end

namespace Accepted

variable {n n1 n2 n3 n' m : Node} {s1 s2 s' : PassState}

/-- The tree that code is made from is well formed. -/
theorem formed (h : Accepted n n1 n2 n3 n' s1 s2 s') (hn : n.IsProgram) : n'.formed = true := by
  have hf : n3.formed = true := (hn.congr h.like.2.2).formed
  simpa [Node.formedAll] using ((h.follows hn).formed (by simpa [Node.formedAll] using hf) (by simp)).1

/-- Each node of a program is in the tree that code is made from. -/
theorem exists_part (h : Accepted n n1 n2 n3 n' s1 s2 s') (hn : n.IsProgram) (hm : m ∈ n.parts) :
    ∃ m' ∈ n'.parts, m'.id = m.id ∧ m'.kind.bare = m.kind.bare := by
  obtain ⟨m3, hm3, hbare⟩ := Node.exists_part_of_like h.like.2.2 hm
  have hmem : m3 ∈ Node.partsAll [n3] := Node.mem_partsAll.2 ⟨n3, List.mem_singleton_self n3, hm3⟩
  obtain ⟨m', hm', hid, hkind⟩ := (h.follows hn).exists_part hmem
  refine ⟨m', by simpa [Node.partsAll] using hm', ?_, ?_⟩
  · rw [hid, ← Node.id_bare m3, hbare, Node.id_bare]
  · rw [hkind.bare, ← Node.kind_bare, hbare, Node.kind_bare]

theorem allTyped (h : Accepted n n1 n2 n3 n' s1 s2 s') (hn : n.IsProgram) : n'.AllTyped :=
  Check.allTyped_visit n3 (hn.congr h.like.2.2).formed h.checked

end Accepted

end MiniC
