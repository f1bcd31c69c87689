import MiniC.Proofs.IntLang.Resolving
import MiniC.Syntax.ArrayLengths

/-!
# Trees that stay as they are

There is nothing to complete in a tree of the integer language: no array has a length to be filled in, no initialiser
gets lists around its elements, and no format is cut into pieces. So the tree is the same before and after the
lengths are filled in, and before and after the check of types.
-/

namespace MiniC

variable {pl : Place} {around : Kind} {ns : List Node} {s : Stmt} {sized : Place → Nat → Prop}

namespace Node

variable (P : Option Kind → Kind → Prop)

mutual

/-- A condition holds of the kind of every node, with the kind of the node around it. -/
def Everywhere (around : Option Kind) : Node → Prop
  | .mk _ kind _ cs => P around kind ∧ EverywhereIn kind cs

def EverywhereIn (around : Kind) : List Node → Prop
  | [] => True
  | c :: cs => Everywhere (some around) c ∧ EverywhereIn around cs

end

@[simp] theorem everywhereIn_append (around : Kind) (ns ms : List Node) :
    EverywhereIn P around (ns ++ ms) ↔ EverywhereIn P around ns ∧ EverywhereIn P around ms := by
  induction ns with
  | nil => simp [EverywhereIn]
  | cons n ns ih => simp [EverywhereIn, ih, and_assoc]

end Node

/-- Kinds that belong to programs with integers only; there may be a condition on calls. -/
def Kind.Integral (call : Option Callee → Prop) (around : Option Kind) : Kind → Prop
  | .declarator head => head.layers = [] ∧ ∃ spec, around = some (.variableDeclaration spec) ∧ spec.base = .int
  | .parameter head => head.layers = []
  | .call _ callee _ => call callee
  | _ => True

/-! ## Lengths of arrays -/

section

variable {call : Option Callee → Prop} {around : Option Kind} {id : Nat} {kind : Kind} {o : Option ParseTree}
  {cs : List Node}

namespace Node

theorem measured_integral (h : kind.Integral call around) : (mk id kind o cs).measured around = .ok kind := by
  cases kind with
  | declarator head =>
    obtain ⟨name, layers, symbol⟩ := head
    obtain ⟨rfl, -⟩ := h
    cases hlist : (mk id (.declarator ⟨name, [], symbol⟩) o cs).initializer? <;>
      simp [measured, kind, hlist, fillLengths, pure, Except.pure, bind, Except.bind]
  | parameter head =>
    obtain ⟨spec, name, layers⟩ := head
    obtain rfl : layers = [] := h
    simp [measured, kind, fillLengths, pure, Except.pure, bind, Except.bind]
  | _ => rfl

mutual

theorem withLengths_integral {around : Option Kind} {n : Node} (h : Everywhere (Kind.Integral call) around n) :
    n.withLengths around = .ok n := by
  match n with
  | .mk i kind o cs =>
    obtain ⟨hkind, hcs⟩ := h
    rw [withLengths, measured_integral hkind]
    change (withLengthsAll kind cs >>= fun children => pure (mk i kind o children)) = _
    rw [withLengthsAll_integral hcs]
    rfl

theorem withLengthsAll_integral {around : Kind} {ns : List Node} (h : EverywhereIn (Kind.Integral call) around ns) :
    withLengthsAll around ns = .ok ns := by
  match ns with
  | [] => rfl
  | n :: ns =>
    obtain ⟨hn, hns⟩ := h
    rw [withLengthsAll, withLengths_integral hn]
    change (withLengthsAll around ns >>= fun cs => pure (n :: cs)) = _
    rw [withLengthsAll_integral hns]
    rfl

end

end Node

/-! ## The check of types -/

namespace Check

variable {s s' : PassState} {n n' : Node} {above : List Node}

/-- The call is one of a function of the program. -/
def isOwn (callee : Option Callee) : Prop := ∃ f, callee = some f ∧ f.isLibrary = false

theorem gives_checkCall {name : Option String} {callee : Option Callee} (h : isOwn callee) :
    Gives (· = none) (checkCall n above name callee) := by
  obtain ⟨f, rfl, hf⟩ := h
  simp only [checkCall, hf, Bool.and_false, Bool.false_eq_true, if_false, pure_bind]
  grind

theorem gives_checkDeclarator {head : DeclaratorHead} {spec : Specifiers} (hlayers : head.layers = [])
    (haround : above.head?.map Node.kind = some (.variableDeclaration spec)) :
    Gives (· = none) (checkDeclarator n above head) := by
  rw [checkDeclarator, haround]
  refine .lift fun type htype => ?_
  obtain rfl : CType.declared spec.base spec.const [] false = type := by
    simpa [Node.declaratorType, Kind.specifiers?, hlayers, pure, Except.pure] using htype
  have hno : (CType.declared spec.base spec.const [] false).hasArrays = false := rfl
  have hisArray : (CType.declared spec.base spec.const [] false).isArray = .ok false := rfl
  simp only [hno, hisArray, pass_lift_ok, pure_bind, Bool.false_eq_true, if_false]
  refine .bind fun isVoid => ?_
  split
  · refine .bind fun _ => ?_
    split <;> grind
  · split <;> grind

theorem gives_checkNode (h : n.kind.Integral isOwn (above.head?.map Node.kind)) : Gives (· = n) (checkNode n above) := by
  obtain ⟨id, kind, o, cs⟩ := n
  unfold checkNode
  cases kind with
  | declarator head =>
    obtain ⟨hlayers, spec, haround, -⟩ := h
    intro s n' s' hr
    obtain ⟨r, s1, hr1, hr⟩ := runs_bind.1 hr
    obtain rfl := gives_checkDeclarator hlayers haround _ _ _ hr1
    exact (runs_pure.1 hr).1
  | call name callee pieces =>
    intro s n' s' hr
    obtain ⟨r, s1, hr1, hr⟩ := runs_bind.1 hr
    obtain rfl := gives_checkCall h _ _ _ hr1
    exact (runs_pure.1 hr).1
  | returnStmt | conditional | arith | assign | logic | compare | unary | addressOf | dereference | logicalNot
  | subscript => exact .bind fun _ => .pure rfl
  | _ => exact .pure rfl

mutual

theorem gives_visit {above : List Node} {n : Node} {around : Option Kind} (ha : above.head?.map Node.kind = around)
    (h : Node.Everywhere (Kind.Integral isOwn) around n) : Gives (· = n) (visit above n) := by
  match n with
  | .mk id kind o cs =>
    obtain ⟨hkind, hcs⟩ := h
    have hchecked : Gives (· = .mk id kind o cs) (do
        let children ← visitAll (.mk id kind o cs :: above) cs
        let n := Node.withChildren children (.mk id kind o cs)
        if needsSoundChildren kind then
          if ← Pass.anyMarked children then return n
        checkNode n above) := by
      intro s n' s' hr
      obtain ⟨cs', s1, hcs', hrest⟩ := runs_bind.1 hr
      obtain rfl := gives_visitAll rfl hcs _ _ _ hcs'
      have hnode : Gives (· = .mk id kind o cs') (checkNode (.mk id kind o cs') above) := gives_checkNode (ha ▸ hkind)
      have hlast : Gives (· = .mk id kind o cs') (do
          if needsSoundChildren kind then
            if ← Pass.anyMarked cs' then return .mk id kind o cs'
          checkNode (.mk id kind o cs') above) := by grind
      exact hlast _ _ _ hrest
    unfold visit
    by_cases hparts : hasNoParts kind = true
    · simp only [hparts, if_true]
      exact .pure rfl
    · by_cases hprogram : (kind != .program) = true
      · simp only [hparts, hprogram, Bool.false_eq_true, if_false, if_true]
        refine .bind fun marked => ?_
        cases marked
        · exact hchecked
        · exact .pure rfl
      · simp only [hparts, hprogram, Bool.false_eq_true, if_false]
        exact hchecked

theorem gives_visitAll {above ns : List Node} {around : Kind} (ha : above.head?.map Node.kind = some around)
    (h : Node.EverywhereIn (Kind.Integral isOwn) around ns) : Gives (· = ns) (visitAll above ns) := by
  match ns with
  | [] => rw [visitAll]; exact .pure rfl
  | c :: cs =>
    obtain ⟨hc, hcs⟩ := h
    intro s ns' s' hr
    rw [visitAll] at hr
    obtain ⟨c', s1, hc', hrest⟩ := runs_bind.1 hr
    obtain ⟨cs', s2, hcs', hlast⟩ := runs_bind.1 hrest
    obtain rfl := gives_visit ha hc _ _ _ hc'
    obtain rfl := gives_visitAll ha hcs _ _ _ hcs'
    exact (runs_pure.1 hlast).1

end

end Check

end

namespace IntLang

open Node

/-! ## Trees of the integer language -/

section

variable {call : Option Callee → Prop} {ok : Place → Kind → Prop}
  (hcall : ∀ pl f callee pieces, ok pl (.call (.some f) callee pieces) → call callee)

include hcall

theorem Exprs.integral {es : List Expr} (h : Exprs (ok pl) ns es) : EverywhereIn (Kind.Integral call) around ns := by
  induction h generalizing around with
  | call hok _ ih => exact ⟨⟨hcall _ _ _ _ hok, ⟨trivial, ih⟩, trivial⟩, trivial⟩
  | _ => simp_all [EverywhereIn, Everywhere, Kind.Integral]

theorem Decls.integral {spec : Specifiers} {ds : List Node} (h : Decls ok pl ds s) (hspec : spec.base = .int) :
    EverywhereIn (Kind.Integral call) (.variableDeclaration spec) ds := by
  induction h with
  | nil => trivial
  | cons hok hinit _ ih =>
    refine ⟨⟨⟨rfl, spec, rfl, hspec⟩, ?_⟩, ih⟩
    cases hinit with
    | none => trivial
    | some he => exact ⟨⟨trivial, he.integral hcall⟩, trivial⟩

theorem First.integral {is : List Node} (h : First ok pl is s) : EverywhereIn (Kind.Integral call) around is := by
  cases h with
  | none => trivial
  | decls hspec hd => exact ⟨⟨trivial, hd.integral hcall hspec⟩, trivial⟩
  | expr he => exact he.integral hcall

theorem Part.integral {e : Option Expr} (h : Part (ok pl) ns e) : EverywhereIn (Kind.Integral call) around ns := by
  cases h with
  | none => trivial
  | some he => exact he.integral hcall

theorem Stmts.integral (h : Stmts ok pl ns s) : EverywhereIn (Kind.Integral call) around ns := by
  induction h generalizing around with
  | nil => trivial
  | cons _ _ ih ih' => exact ⟨ih.1, ih'⟩
  | empty => exact ⟨⟨trivial, trivial⟩, trivial⟩
  | expr he => exact ⟨⟨trivial, he.integral hcall⟩, trivial⟩
  | decls hspec hd => exact ⟨⟨trivial, ⟨trivial, hd.integral hcall hspec⟩, trivial⟩, trivial⟩
  | block _ _ ih => exact ⟨⟨trivial, ⟨trivial, ih⟩, trivial⟩, trivial⟩
  | ifThen hc _ ih | whileLoop hc _ ih =>
    exact ⟨⟨trivial, ⟨trivial, (hc.integral hcall).1, ih⟩, trivial⟩, trivial⟩
  | ifElse hc _ _ ih ih' =>
    exact ⟨⟨trivial, ⟨trivial, (hc.integral hcall).1, ih.1, ⟨trivial, ih'⟩, trivial⟩, trivial⟩, trivial⟩
  | forLoop _ hfirst hcond hit _ _ ih =>
    refine ⟨⟨trivial, ⟨trivial, ?_⟩, trivial⟩, trivial⟩
    simp only [everywhereIn_append]
    exact ⟨⟨⟨hfirst.integral hcall, hcond.integral hcall⟩, hit.integral hcall⟩, ih⟩
  | ret he => exact ⟨⟨trivial, ⟨trivial, he.integral hcall⟩, trivial⟩, trivial⟩
  | brk | cont => exact ⟨⟨trivial, ⟨trivial, trivial⟩, trivial⟩, trivial⟩

omit hcall in
theorem Params.integral {xs : List String} (h : Params ok pl ns xs) : EverywhereIn (Kind.Integral call) around ns := by
  induction h with
  | nil => trivial
  | void => exact ⟨⟨rfl, trivial⟩, trivial⟩
  | cons _ _ _ ih => exact ⟨⟨rfl, trivial⟩, ih⟩

theorem Items.integral {p : Program} (h : Items ok sized pl ns p) : EverywhereIn (Kind.Integral call) around ns := by
  induction h with
  | nil => trivial
  | vars hspec hd _ ih => exact ⟨⟨trivial, hd.integral hcall hspec⟩, ih⟩
  | function _ _ _ _ hps hss _ ih =>
    exact ⟨⟨trivial, ⟨trivial, hps.integral⟩, ⟨trivial, hss.integral hcall⟩, trivial⟩, ih⟩

end

/-! ## Passes that change nothing -/

section

variable {id : Nat} {o : Option ParseTree} {ns : List Node} {p : Program}

theorem withLengths_program (h : Items Anywhere sized .start ns p) :
    (mk id .program o ns).withLengths none = .ok (mk id .program o ns) := by
  have hns : EverywhereIn (Kind.Integral fun _ => True) .program ns := h.integral fun _ _ _ _ _ => trivial
  have hroot : Everywhere (Kind.Integral fun _ => True) none (mk id .program o ns) := ⟨trivial, hns⟩
  exact withLengths_integral hroot

theorem check_program {T : SymbolTable} {s s' : PassState} {n : Node} (h : Items (Resolved T) sized .start ns p)
    (hr : Runs (Check.run (mk id .program o ns)) s n s') : n = mk id .program o ns ∧ s'.table = s.table := by
  have hns : EverywhereIn (Kind.Integral Check.isOwn) .program ns := by
    refine h.integral fun pl f callee pieces hok => ?_
    obtain ⟨c, hc, -, hlibrary, -⟩ := hok f rfl
    exact ⟨c, hc, hlibrary⟩
  have hroot : Everywhere (Kind.Integral Check.isOwn) none (mk id .program o ns) := ⟨trivial, hns⟩
  have hn : MiniC.Gives (· = mk id .program o ns) (Check.run (mk id .program o ns)) := Check.gives_visit rfl hroot
  exact ⟨hn _ _ _ hr, ((Check.checked_run _).runs hr).table⟩

end

end IntLang

end MiniC
