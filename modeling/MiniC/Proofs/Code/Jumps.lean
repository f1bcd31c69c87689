import MiniC.Proofs.Code.Addressing
import MiniC.Proofs.Pass.Typed

/-!
# Where loops are left and continued

The first pass looks upwards for the loop of a `break` or `continue`; the code maker hands the labels of the innermost
loop downwards. `Emit.direct` is a code maker that hands nothing downwards: it keeps the labels of every loop around under
the number of the loop, and a jump goes to those of the loop that the first pass finds. Both make the same code.
-/

namespace MiniC

open Lexical

namespace Kind

/-- What leaves or continues a loop. -/
def isJump : Kind → Bool
  | breakStmt | continueStmt => true
  | _ => false

/-- What has neither jumps nor loops in it. -/
def isStraight (k : Kind) : Bool := isFlat k || k == returnStmt || k == parameters || k.isParameter

end Kind

mutual

/-- The numbers of the jumps in a tree, each with that of the loop which the first pass finds for it. -/
def Fill.jumps (above : List Node) : Node → List (Nat × Option Nat)
  | .mk id kind o cs =>
    if kind.isJump then [(id, (loopAround? above).map Node.id)] else jumpsAll (.mk id kind o cs :: above) cs

def Fill.jumpsAll (above : List Node) : List Node → List (Nat × Option Nat)
  | [] => []
  | n :: ns => jumps above n ++ jumpsAll above ns

end

theorem Fill.mem_jumpsAll {above ns : List Node} {j : Nat × Option Nat} :
    j ∈ jumpsAll above ns ↔ ∃ n ∈ ns, j ∈ jumps above n := by
  induction ns with
  | nil => simp [jumpsAll]
  | cons n ns ih => simp [jumpsAll, ih]

structure LoopLabels where
  again : Label
  after : Label

/-- The labels that a loop makes, if `made` labels were made before. -/
def Kind.loopLabels? (made : Nat) : Kind → Option LoopLabels
  | whileLoop => some ⟨.numbered (made + 1) .whileCondition, .numbered (made + 2) .whileAfter⟩
  | forLoop .. => some ⟨.numbered (made + 1) .forIteration, .numbered (made + 3) .forAfter⟩
  | _ => none

namespace Emit

def jumpTo (loops : List (Nat × LoopLabels)) (loop : Option Node) (label : LoopLabels → Label) : EmitM Unit :=
  match loop.bind (loops.lookup ·.id) with
  | some labels => instr (.ujp (label labels))
  | none => throw .missing

mutual

/-- The coder of a tree in which a jump goes to the loop that the first pass finds. -/
def direct (above : List Node) (loops : List (Nat × LoopLabels)) : Node → Coder
  | .mk id kind o cs =>
    let run (setting : Setting) : EmitM Unit :=
      match kind with
      | .breakStmt => jumpTo loops (Fill.loopAround? above) (·.after)
      | .continueStmt => jumpTo loops (Fill.loopAround? above) (·.again)
      | _ => do
        let s ← get
        let labels := (kind.loopLabels? s.labels).toList.map (id, ·)
        codeOf (.mk id kind o cs) (directAll (.mk id kind o cs :: above) (labels ++ loops) cs) setting
    .mk (.mk id kind o cs) run (directAll (.mk id kind o cs :: above) loops cs)

def directAll (above : List Node) (loops : List (Nat × LoopLabels)) : List Node → List Coder
  | [] => []
  | n :: ns => direct above loops n :: directAll above loops ns

end

section

variable {loops : List (Nat × LoopLabels)} {n : Node} {ns cs above : List Node} {id : Nat} {kind : Kind}
  {o : Option ParseTree} {setting : Setting}

theorem directAll_eq (ns : List Node) : directAll above loops ns = ns.map (direct above loops) := by
  induction ns with
  | nil => rfl
  | cons n ns ih => rw [directAll, ih]; rfl

@[simp] theorem node_direct (n : Node) : (direct above loops n).node = n := by
  cases n
  rfl

theorem direct_plain (h : (kind.isJump || kind.isLoop) = false) : direct above loops (.mk id kind o cs) =
    .mk (.mk id kind o cs) (codeOf (.mk id kind o cs) (directAll (.mk id kind o cs :: above) loops cs))
      (directAll (.mk id kind o cs :: above) loops cs) := by
  cases kind <;> first | rfl | cases h

/-! ## What has no jumps -/

theorem straight_of_isInert {k : Kind} (h : k.isInert = true) : k.isStraight = true := by
  simp [Kind.isStraight, isFlat, h]

theorem straight_of_isFirst {k : Kind} (h : k.isFirst = true) : k.isStraight = true := by
  cases k <;> first | rfl | cases h

theorem straight_child (hf : (Node.mk id kind o cs).formed = true) (h : kind.isStraight = true) {c : Node} (hc : c ∈ cs) :
    c.kind.isStraight = true := by
  by_cases hflat : isFlat kind = true
  · simp [Kind.isStraight, flat_children hf hflat c hc]
  have hadmits : kind.admits (cs.map Node.kind) = true := (Bool.and_eq_true_iff.1 hf).1
  have hmem : c.kind ∈ cs.map Node.kind := List.mem_map_of_mem hc
  cases kind with
  | parameters => simp [Kind.isStraight, List.all_eq_true.1 hadmits c.kind hmem]
  | parameter head =>
    exact straight_of_isInert (by simp [Kind.isInert, Kind.isDeclared, List.all_eq_true.1 hadmits c.kind hmem])
  | returnStmt =>
    obtain hempty | hfits := Bool.or_eq_true_iff.1 hadmits
    · simp [List.isEmpty_iff.1 hempty] at hmem
    · obtain ⟨p, hp, hexpr⟩ := Kind.fits_mem hfits c.kind hmem
      obtain rfl := List.mem_singleton.1 hp
      exact straight_of_isInert (Kind.isInert_of_isExpression hexpr)
  | _ => first | exact (hflat rfl).elim | cases h

theorem plain_of_straight (h : kind.isStraight = true) : (kind.isJump || kind.isLoop) = false := by
  cases kind <;> first | rfl | cases h

theorem direct_straight (n : Node) (hf : n.formed = true) (h : n.kind.isStraight = true) (above : List Node) :
    direct above loops n = coder n := by
  induction n using Node.induct generalizing above with
  | h id kind o cs ih =>
    have h : kind.isStraight = true := h
    rw [direct_plain (plain_of_straight h), coder, directAll_eq, coders_eq,
      List.map_congr_left fun c hc => ih c hc (Node.formed_child hf hc) (straight_child hf h hc) _]

/-! ## Constructs -/

theorem ext_outcome {α : Type} {m m' : EmitM α} (h : ∀ s, outcome m s = outcome m' s) : m = m' := funext h

theorem outcome_newLabel_bind {α : Type} (use : LabelUse) (f : Label → EmitM α) (s : EmitState) :
    outcome (newLabel use >>= f) s = outcome (f (.numbered (s.labels + 1) use)) { s with labels := s.labels + 1 } := rfl

theorem lift_pure_bind {α β : Type} (a : α) (f : α → EmitM β) : (lift (pure a) >>= f) = f a := rfl

attribute [local simp] nth lift_pure_bind outcome_newLabel_bind

section

variable {f g : Node → Coder} {c d : Node}

theorem runAll_congr (h : ∀ n ∈ ns, (f n).run setting = (g n).run setting) :
    runAll setting (ns.map f) = runAll setting (ns.map g) := by
  induction ns with
  | nil => rfl
  | cons n ns ih =>
    obtain ⟨hn, hns⟩ := List.forall_mem_cons.1 h
    rw [List.map_cons, List.map_cons, runAll, runAll, hn, ih hns]

theorem choice_congr (hc : f c = g c)
    (h : ∀ n ∈ ns, (f n).run { setting with address := false } = (g n).run { setting with address := false }) :
    choice ((c :: ns).map f) setting = choice ((c :: ns).map g) setting := by
  match ns with
  | [] => simp [choice, hc]
  | d :: ds =>
    obtain ⟨hd, hds⟩ := List.forall_mem_cons.1 h
    match ds with
    | [] | _ :: _ :: _ => simp [choice, hc, hd]
    | [e] => simp [choice, hc, hd, hds e List.mem_cons_self]

theorem doWhile_congr (hc : (f c).run setting = (g c).run setting) (hd : f d = g d) :
    doWhile ([c, d].map f) setting = doWhile ([c, d].map g) setting := by
  simp [doWhile, hd, hc]

/-- Where the labels of a loop are handed to its parts. -/
def inLoop (setting : Setting) (labels : LoopLabels) : Setting :=
  { setting with again := some labels.again, after := some labels.after }

variable {s : EmitState} {labels : LoopLabels}

theorem whileLoop_congr (hlabels : Kind.whileLoop.loopLabels? s.labels = some labels) (hc : f c = g c)
    (hd : (f d).run (inLoop setting labels) = (g d).run (inLoop setting labels)) :
    outcome (whileLoop ([c, d].map f) setting) s = outcome (whileLoop ([c, d].map g) setting) s := by
  cases hlabels
  simp only [inLoop] at hd
  simp [whileLoop, hc, hd]

theorem forLoop_congr {p q r : Option Node} {body : Node}
    (hlabels : (Kind.forLoop p.isSome q.isSome r.isSome).loopLabels? s.labels = some labels)
    (hp : p.map f = p.map g) (hq : q.map f = q.map g) (hr : r.map f = r.map g)
    (hbody : (f body).run (inLoop setting labels) = (g body).run (inLoop setting labels)) :
    outcome (forLoop p.isSome q.isSome r.isSome ((p.toList ++ (q.toList ++ (r.toList ++ [body]))).map f) setting) s =
      outcome (forLoop p.isSome q.isSome r.isSome ((p.toList ++ (q.toList ++ (r.toList ++ [body]))).map g) setting) s := by
  cases hlabels
  simp only [inLoop] at hbody
  have hparts : ∀ f : Node → Coder, headerCoders p.isSome q.isSome r.isSome
      ((p.toList ++ (q.toList ++ (r.toList ++ [body]))).map f) = (p.map f, q.map f, r.map f, [f body]) := by
    intro f
    cases p <;> cases q <;> cases r <;> rfl
  simp only [forLoop, hparts, hp, hq, hr, outcome_newLabel_bind, runAll, hbody]

end

/-! ## Side by side -/

/-- The labels that are handed downwards are those of the innermost loop, which the first pass finds too. -/
structure Mirrors (above : List Node) (loops : List (Nat × LoopLabels)) (setting : Setting) : Prop where
  loop : (Fill.loopAround? above).map Node.id = loops.head?.map (·.1)
  again : setting.again = loops.head?.map (·.2.again)
  after : setting.after = loops.head?.map (·.2.after)

theorem Mirrors.below (h : Mirrors above loops setting) (hloop : n.kind.isLoop = false) (address : Bool) (nodes : List Node) :
    Mirrors (n :: above) loops { setting with address, above := nodes } :=
  { h with loop := by rw [Fill.loopAround?, List.find?_cons_of_neg (by simp [hloop])]; exact h.loop }

theorem mirrors_loop (hloop : n.kind.isLoop = true) (labels : LoopLabels) (setting : Setting) :
    Mirrors (n :: above) ((n.id, labels) :: loops) (inLoop setting labels) :=
  ⟨by rw [Fill.loopAround?, List.find?_cons_of_pos (by exact hloop)]; rfl, rfl, rfl⟩

theorem run_jump (hjump : kind.isJump = true) (hfound : (Fill.loopAround? above).isSome = true)
    (hs : Mirrors above loops setting) :
    (direct above loops (.mk id kind o cs)).run setting = (coder (.mk id kind o cs)).run setting := by
  obtain ⟨loop, hloop⟩ := Option.isSome_iff_exists.1 hfound
  match loops with
  | [] => cases hloop ▸ hs.loop
  | (i, labels) :: rest =>
    obtain rfl : loop.id = i := by simpa [hloop] using hs.loop
    have hjumpTo : ∀ label, jumpTo ((loop.id, labels) :: rest) (Fill.loopAround? above) label = jump (some (label labels)) :=
      fun label => by simp [jumpTo, hloop, jump]
    cases kind with
    | breakStmt => exact (hjumpTo _).trans (congrArg jump hs.after.symm)
    | continueStmt => exact (hjumpTo _).trans (congrArg jump hs.again.symm)
    | _ => cases hjump

/-- The code of a loop, which has its labels from the number of labels made before. -/
theorem outcome_direct_loop {s : EmitState} {labels : LoopLabels} (h : kind.loopLabels? s.labels = some labels) :
    outcome ((direct above loops (.mk id kind o cs)).run setting) s = outcome (codeOf (.mk id kind o cs)
      (cs.map (direct (.mk id kind o cs :: above) ((id, labels) :: loops))) setting) s := by
  rw [← directAll_eq]
  cases kind with
  | whileLoop | forLoop => cases h; rfl
  | _ => cases h

theorem run_direct (n : Node) (hf : n.formed = true) (hin : n.kind.isInner = true)
    (hfound : ∀ j ∈ Fill.jumps above n, j.2.isSome = true) (hs : Mirrors above loops setting) :
    (direct above loops n).run setting = (coder n).run setting := by
  induction n using Node.induct generalizing above loops setting with
  | h id kind o cs ih =>
    by_cases hjump : kind.isJump = true
    · exact run_jump hjump (by simpa [Fill.jumps, hjump] using hfound) hs
    by_cases hstraight : kind.isStraight = true
    · rw [direct_straight _ hf hstraight]
    rw [Fill.jumps, if_neg hjump] at hfound
    have hbelow : ∀ {loops setting}, Mirrors (.mk id kind o cs :: above) loops setting → ∀ c ∈ cs,
        (direct (.mk id kind o cs :: above) loops c).run setting = (coder c).run setting := fun hs c hc =>
      ih c hc (Node.formed_child hf hc) ((formed_children hf hin).2 c hc)
        (fun j hj => hfound j (Fill.mem_jumpsAll.2 ⟨c, hc, hj⟩)) hs
    have hadmits : kind.admits (cs.map Node.kind) = true := (Bool.and_eq_true_iff.1 hf).1
    have hsame : ∀ {above loops} {c : Node}, c ∈ cs → c.kind.isStraight = true → direct above loops c = coder c := fun hc h =>
      direct_straight _ (Node.formed_child hf hc) h _
    have hexpr : ∀ {above loops} {c : Node}, c ∈ cs → c.kind.isExpression = true → direct above loops c = coder c := fun hc h =>
      hsame hc (straight_of_isInert (Kind.isInert_of_isExpression h))
    cases kind with
    | statements =>
      rw [direct_plain rfl, coder, directAll_eq, coders_eq]
      simp only [Coder.run, codeOf, Node.kind, statements, runAll_congr (hbelow (hs.below rfl _ _))]
    | statement | elseBranch =>
      rw [direct_plain rfl, coder, directAll_eq, coders_eq]
      exact runAll_congr (hbelow (hs.below rfl _ _))
    | ifStmt =>
      rw [direct_plain rfl, coder, directAll_eq, coders_eq]
      obtain ⟨c, ds, rfl, hc⟩ : ∃ c ds, cs = c :: ds ∧ c.kind.isExpression = true := by
        obtain h | h := Bool.or_eq_true_iff.1 hadmits
        · obtain ⟨c, d, rfl, hc, -⟩ := fits_two h
          exact ⟨c, [d], rfl, hc⟩
        · obtain ⟨c, d, e, rfl, hc, -⟩ := fits_three h
          exact ⟨c, [d, e], rfl, hc⟩
      exact choice_congr (hexpr List.mem_cons_self hc) fun d hd => hbelow (hs.below rfl _ _) d (List.mem_cons_of_mem _ hd)
    | doWhile =>
      rw [direct_plain rfl, coder, directAll_eq, coders_eq]
      obtain ⟨c, d, rfl, -, hd⟩ := fits_two hadmits
      exact doWhile_congr (hbelow (hs.below rfl _ _) c List.mem_cons_self) (hexpr (by simp) hd)
    | whileLoop =>
      obtain ⟨c, d, rfl, hc, -⟩ := fits_two hadmits
      refine ext_outcome fun s => (outcome_direct_loop rfl).trans ?_
      exact whileLoop_congr rfl (hexpr List.mem_cons_self hc) (hbelow (mirrors_loop rfl _ _) d (by simp))
    | forLoop a b c =>
      obtain ⟨p, q, r, body, rfl, rfl, rfl, rfl, hp, hq, hr⟩ := loop_children hadmits
      refine ext_outcome fun s => (outcome_direct_loop rfl).trans ?_
      rw [coder, coders_eq]
      refine forLoop_congr rfl (Option.map_congr fun n hn => hsame ?_ (straight_of_isFirst (hp n hn)))
        (Option.map_congr fun n hn => hsame ?_ (straight_of_isInert (hq n hn)))
        (Option.map_congr fun n hn => hsame ?_ (straight_of_isInert (hr n hn))) (hbelow (mirrors_loop rfl _ _) body (by simp))
      all_goals simp_all
    | _ => first | exact (hjump rfl).elim | exact (hstraight rfl).elim | cases hin

/-! ## Programs -/

theorem run_direct_definition (hf : n.formed = true) (hdefinition : n.kind.isDefinition = true)
    (hfound : ∀ j ∈ Fill.jumps above n, j.2.isSome = true) (hs : Mirrors above loops setting) :
    (direct above loops n).run setting = (coder n).run setting := by
  obtain ⟨id, kind, o, cs⟩ := n
  cases kind with
  | function head =>
    have hform : head.form.isDefinition = true := hdefinition
    obtain ⟨-, ip, op, ps, -, ⟨hnot, -⟩ | ⟨ib, ob, bs, hb, -, rfl⟩⟩ := function_children hf
    · rw [hform] at hnot
      cases hnot
    have hbody := fun nodes => run_direct _ hb rfl (fun j hj => hfound j (Fill.mem_jumpsAll.2 ⟨_, by simp, hj⟩))
      (hs.below rfl setting.address nodes)
    rw [direct_plain rfl, coder]
    simp only [Coder.run, codeOf, Node.kind, hform, if_true, function, directAll, coders, List.filter_cons, node_direct,
      node_coder, bne_self_eq_false, Bool.false_eq_true, if_false, List.filter_nil]
    simp only [bne, show (Kind.statements == Kind.parameters) = false from rfl, Bool.not_false, if_true, runAll, hbody]
  | _ => cases hdefinition

theorem forIn_congr {γ : Type} {as : List γ} {f g : γ → PUnit → EmitM (ForInStep PUnit)} (h : ∀ a ∈ as, f a = g a) :
    forIn as PUnit.unit f = forIn as PUnit.unit g := by
  induction as with
  | nil => rfl
  | cons a as ih =>
    obtain ⟨ha, has⟩ := List.forall_mem_cons.1 h
    rw [List.forIn_cons, List.forIn_cons, ha]
    refine congrArg (_ >>= ·) (funext fun r => ?_)
    cases r with
    | done u => rfl
    | yield u => exact ih has

theorem programOf_direct (hf : (Node.mk id .program o cs).formed = true)
    (hfound : ∀ j ∈ Fill.jumpsAll [.mk id .program o cs] cs, j.2.isSome = true) :
    programOf (.mk id .program o cs) (directAll [.mk id .program o cs] [] cs) = program (.mk id .program o cs) := by
  have hglobals : globalsOf (.mk id .program o cs) (directAll [.mk id .program o cs] [] cs) =
      globalsOf (.mk id .program o cs) (coders cs) := by
    rw [directAll_eq, coders_eq, globalsOf, globalsOf, List.flatMap_map, List.flatMap_map]
    refine List.flatMap_congr fun n hn => ?_
    cases hk : n.kind with
    | variableDeclaration spec => rw [direct_straight n (Node.formed_child hf hn) (by rw [hk]; rfl)]
    | _ => simp only [node_direct, node_coder, hk]
  have hfunctions : ∀ n ∈ cs, (if n.kind.isDefinition then do
        (direct [.mk id .program o cs] [] n).run { above := [.mk id .program o cs] }
        pure (ForInStep.yield PUnit.unit)
      else pure (ForInStep.yield PUnit.unit)) = (if n.kind.isDefinition then do
        (coder n).run { above := [.mk id .program o cs] }
        pure (ForInStep.yield PUnit.unit)
      else pure (ForInStep.yield PUnit.unit)) := fun n hn => by
    split
    next hdefinition =>
      rw [run_direct_definition (Node.formed_child hf hn) hdefinition (fun j hj => hfound j (Fill.mem_jumpsAll.2 ⟨n, hn, hj⟩))
        ⟨rfl, rfl, rfl⟩]
    next => rfl
  rw [← programOf_coders]
  unfold programOf
  rw [Node.children, hglobals, directAll_eq, coders_eq]
  simp only [List.forIn_map, node_direct, node_coder, forIn_congr fun n hn => funext fun _ => hfunctions n hn]

end

end Emit

/-! ## Trees of the passes -/

namespace Fill

variable {above above' ns ns' cs : List Node} {n n' : Node} {s s' : PassState} {id : Nat} {kind : Kind} {o : Option ParseTree}

/-- The first pass finds the same loop below both lists of nodes. -/
abbrev SameLoop (above above' : List Node) : Prop := (loopAround? above').map Node.id = (loopAround? above).map Node.id

theorem SameLoop.cons {kind' : Kind} {cs' : List Node} (h : SameLoop above above') (hloop : kind'.isLoop = kind.isLoop) :
    SameLoop (.mk id kind o cs :: above) (.mk id kind' o cs' :: above') := by
  unfold SameLoop loopAround? at h ⊢
  simp only [List.find?_cons, Node.kind, hloop]
  cases kind.isLoop with
  | true => rfl
  | false => exact h

theorem jump_congr {k k' : Kind} (h : k'.bare = k.bare) : k'.isJump = k.isJump ∧ k'.isLoop = k.isLoop := by
  have hbare : ∀ k : Kind, k.bare.isJump = k.isJump ∧ k.bare.isLoop = k.isLoop := fun k => by cases k <;> exact ⟨rfl, rfl⟩
  rw [← (hbare k').1, ← (hbare k').2, h]
  exact hbare k

theorem jumpsAll_eq (ns : List Node) : jumpsAll above ns = ns.flatMap (jumps above) := by
  induction ns with
  | nil => rfl
  | cons n ns ih => rw [jumpsAll, ih]; rfl

theorem jumps_bare (n : Node) (h : SameLoop above above') : jumps above' n.bare = jumps above n := by
  induction n using Node.induct generalizing above above' with
  | h id kind o cs ih =>
    obtain ⟨hjump, hloop⟩ := jump_congr (Kind.bare_bare kind)
    rw [Node.bare, jumps, jumps, hjump, h, jumpsAll_eq, jumpsAll_eq, Node.bareAll_eq, List.flatMap_map,
      List.flatMap_congr fun c hc => ih c hc (h.cons hloop)]

/-- The check of types keeps the jumps and their loops. -/
theorem jumpsAll_follows {b : Bool} (h : Follows b ns ns') (habove : SameLoop above above') :
    jumpsAll above' ns' = jumpsAll above ns := by
  induction h generalizing above above' with
  | nil => rfl
  | node hkind _ _ ihcs ihns =>
    obtain ⟨hjump, hloop⟩ := jump_congr hkind.bare
    rw [jumpsAll, jumpsAll, jumps, jumps, hjump, habove, ihcs (habove.cons hloop), ihns habove]
  | @wrapped i o n ns ns' _ ih =>
    have hlist : jumps (.mk i (.initializerList false) o [n] :: above) n = jumps above n := by
      rw [← jumps_bare n (show SameLoop above above from rfl), ← jumps_bare n]
      rfl
    rw [ih habove, jumpsAll, jumpsAll, jumps, if_neg (by simp [Kind.isJump]), jumpsAll, jumpsAll, List.append_nil, hlist]

theorem jumps_straight (n : Node) (hf : n.formed = true) (h : n.kind.isStraight = true) (above : List Node) :
    jumps above n = [] := by
  induction n using Node.induct generalizing above with
  | h id kind o cs ih =>
    have hjump := (Bool.or_eq_false_iff.1 (Emit.plain_of_straight (show kind.isStraight = true from h))).1
    rw [jumps, hjump, if_neg (by simp), jumpsAll_eq, List.flatMap_eq_nil_iff]
    exact fun c hc => ih c hc (Node.formed_child hf hc) (Emit.straight_child hf h hc) _

/-! ## Quiet runs -/

/-- Where there may be jumps the pass goes on to the children. -/
theorem quiet_children (hjump : ¬ kind.isJump = true) (hstraight : ¬ kind.isStraight = true)
    (h : Quiet (visit above (.mk id kind o cs)) s n' s') :
    ∃ s1 cs' s2, Quiet (visitAll (.mk id kind o cs :: above) cs) s1 cs' s2 := by
  by_cases hplain : isPlain kind = true
  · obtain ⟨cs', -, hcs⟩ := quiet_visit_plain hplain h
    exact ⟨s, cs', s', hcs⟩
  cases kind with
  | program =>
    rw [visit] at h
    obtain ⟨cs', s1, hcs, -⟩ := h.unmarked.bind (onward_visitAll _ _) fun _ => .bind (onward_modifyTable _) fun _ => .pure _
    exact ⟨s, cs', s1, hcs⟩
  | function head =>
    obtain ⟨s1, s2, -, -, hrest⟩ := quiet_function h
    split at hrest
    · obtain ⟨t, cs', s3, -, -, hcs, -⟩ := visits.quiet_scoped hrest
      exact ⟨_, cs', s3, hcs⟩
    · obtain ⟨cs', -, hcs⟩ := hrest
      exact ⟨s2, cs', s', hcs⟩
  | statements =>
    cases hopens : opensScope above with
    | true =>
      rw [visit] at h
      have h := h.unmarked
      simp only [hopens, if_true] at h
      obtain ⟨t, cs', s1, -, -, hcs, -⟩ := visits.quiet_scoped h
      exact ⟨_, cs', s1, hcs⟩
    | false =>
      obtain ⟨cs', -, hcs⟩ := quiet_body hopens h
      exact ⟨s, cs', s', hcs⟩
  | forLoop a b c =>
    rw [visit] at h
    obtain ⟨t, cs', s1, -, -, hcs, -⟩ := visits.quiet_scoped h.unmarked
    exact ⟨_, cs', s1, hcs⟩
  | _ => first | exact (hplain rfl).elim | exact (hjump rfl).elim | exact (hstraight rfl).elim

theorem quiet_mem (h : Quiet (visitAll above ns) s ns' s') (hn : n ∈ ns) : ∃ s1 m s2, Quiet (visit above n) s1 m s2 := by
  induction ns generalizing s ns' with
  | nil => cases hn
  | cons c ns ih =>
    obtain ⟨m, ms, s1, -, hm, hms⟩ := visits.quiet_cons h
    obtain rfl | hn := List.mem_cons.1 hn
    · exact ⟨s, m, s1, hm⟩
    · exact ih hms hn

theorem found_of_quiet (n : Node) (hf : n.formed = true) (h : Quiet (visit above n) s n' s') :
    ∀ j ∈ jumps above n, j.2.isSome = true := by
  induction n using Node.induct generalizing above s n' s' with
  | h id kind o cs ih =>
    by_cases hjump : kind.isJump = true
    · obtain ⟨-, -, hloop⟩ := quiet_jump (by cases kind <;> first | exact .inl rfl | exact .inr rfl | cases hjump) h
      rw [jumps, if_pos hjump]
      simpa using hloop
    by_cases hstraight : kind.isStraight = true
    · simp [jumps_straight _ hf hstraight]
    obtain ⟨s1, cs', s2, hcs⟩ := quiet_children hjump hstraight h
    rw [jumps, if_neg hjump]
    intro j hj
    obtain ⟨c, hc, hj⟩ := mem_jumpsAll.1 hj
    obtain ⟨s3, m, s4, hm⟩ := quiet_mem hcs hc
    exact ih c hc (Node.formed_child hf hc) hm j hj

end Fill

/-! ## Compiled programs -/

/-- In a program without errors the first pass finds a loop for every jump, the nearest one, and it is the same in the tree
that code is made from. Every jump goes to the labels of this loop: a jump that has none would end the second code maker
with a fault that the first one never ends with. -/
theorem jumps_of_compileNode {n : Node} {c : Compilation} {messages : Array String} (hn : n.IsProgram)
    (h : compileNode n { stage := .done, messages } = .ok c) (he : Diagnostic.errorCount c.found = 0) :
    ∃ n1 n2 n3 n' s1 s2 s', Accepted n n1 n2 n3 n' s1 s2 s' ∧ c.code = some (generate n' s'.table).2.1 ∧
      (∀ j ∈ Fill.jumps [] n1, j.2.isSome = true) ∧ Fill.jumps [] n' = Fill.jumps [] n1 ∧
      Lexical.programOf n' (Emit.directAll [n'] [] n'.children) = Emit.program n' := by
  obtain ⟨n1, n2, n3, n', s1, s2, s', haccepted, hcode, -⟩ := accepted_of_compileNode h he
  have hfound : ∀ j ∈ Fill.jumps [] n1, j.2.isSome = true :=
    Fill.found_of_quiet n1 (hn.congr haccepted.like.1).formed haccepted.filled
  have hjumps : Fill.jumps [] n' = Fill.jumps [] n1 := by
    have hbare : n3.bare = n1.bare := haccepted.like.2.2.trans haccepted.like.1.symm
    have hfollows := Fill.jumpsAll_follows (haccepted.follows hn) (show Fill.SameLoop [] [] from rfl)
    simp only [Fill.jumpsAll, List.append_nil] at hfollows
    rw [hfollows, ← Fill.jumps_bare n3 (show Fill.SameLoop [] [] from rfl), hbare, Fill.jumps_bare n1 rfl]
  refine ⟨n1, n2, n3, n', s1, s2, s', haccepted, hcode, hfound, hjumps, ?_⟩
  rw [← hjumps] at hfound
  obtain ⟨id, o, cs, rfl⟩ := (hn.congr haccepted.like.2.2).eq
  obtain ⟨kind', cs', rfl, rfl | ⟨_, _, _, _, hcall, -⟩, -⟩ := (haccepted.follows hn).one
  · exact Emit.programOf_direct (haccepted.formed hn) hfound
  · cases hcall

/-- `int main() { for (; 1; ) { do { while (1) { if (1) break; continue; } continue; } while (1); break; } return 1; }` -/
def nestedLoopsTree : Node :=
  let one (id : Nat) : Node := .mk id (.integer 1) none []
  let statement (id : Nat) (n : Node) : Node := .mk id .statement none [n]
  let block (id : Nat) (ns : List Node) : Node := .mk id .statements none ns
  let jump (id : Nat) (kind : Kind) : Node := statement id (.mk (id + 1) kind none [])
  .mk 0 .program none [.mk 1 (.function ⟨.main, ⟨.int, true, false⟩, some "main", []⟩) none [
    .mk 2 .parameters none [],
    block 3 [
      statement 4 (.mk 5 (.forLoop false true false) none [one 6, statement 7 (block 8 [
        statement 9 (.mk 10 .doWhile none [block 11 [
          statement 12 (.mk 13 .whileLoop none [one 14, statement 15 (block 16 [
            statement 17 (.mk 18 .ifStmt none [one 19, jump 20 .breakStmt]),
            jump 22 .continueStmt])]),
          jump 24 .continueStmt], one 26]),
        jump 27 .breakStmt])]),
      statement 29 (.mk 30 .returnStmt none [one 31])]]]

theorem jumps_of_compileNode_nested : nestedLoopsTree.IsProgram ∧
    Fill.jumps [] nestedLoopsTree = [(21, some 13), (23, some 13), (25, some 5), (28, some 5)] ∧
    ∃ c n1 n2 n3 n' s1 s2 s', compileNode nestedLoopsTree { stage := .done } = .ok c ∧ Diagnostic.errorCount c.found = 0 ∧
      Accepted nestedLoopsTree n1 n2 n3 n' s1 s2 s' ∧ c.code = some (generate n' s'.table).2.1 ∧
      (∀ j ∈ Fill.jumps [] n1, j.2.isSome = true) ∧ Fill.jumps [] n' = Fill.jumps [] n1 ∧
      Lexical.programOf n' (Emit.directAll [n'] [] n'.children) = Emit.program n' := by
  have hresult : (compileNode nestedLoopsTree { stage := .done }).toOption.map (Diagnostic.errorCount ·.found) = some 0 := by
    decide +kernel
  have hprogram : nestedLoopsTree.IsProgram := ⟨rfl, by decide, by decide⟩
  obtain ⟨c, hc, he⟩ := Option.map_eq_some_iff.1 hresult
  have hc := toOption_eq_some.1 hc
  obtain ⟨n1, n2, n3, n', s1, s2, s', h⟩ := jumps_of_compileNode hprogram hc he
  exact ⟨hprogram, by decide, c, n1, n2, n3, n', s1, s2, s', hc, he, h⟩

end MiniC
