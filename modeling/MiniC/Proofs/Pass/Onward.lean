import MiniC.Check.Program
import MiniC.Proofs.Pass.Run
import MiniC.Scope.Resolve

/-!
# Messages stay

No pass takes a message back, and a node is marked only together with an error. So if there is no error in the
end, there was none before, and no node was marked. The check of types does not change the symbol table.
-/

namespace MiniC

namespace PassState

def errors (s : PassState) : Nat := Diagnostic.errorCount s.found.toList

end PassState

/-- The messages stay, and marks are made only with errors. -/
structure Onward (s s' : PassState) : Prop where
  found : s.found.toList <+: s'.found.toList
  marks : s'.marks ⊆ s.marks ∨ 0 < s'.errors

/-- A step of the check of types. -/
structure Checked (s s' : PassState) : Prop extends Onward s s' where
  table : s'.table = s.table

section

variable {s s1 s' : PassState}

theorem Onward.errors_le (h : Onward s s') : s.errors ≤ s'.errors := h.found.sublist.countP_le

theorem Onward.refl (s : PassState) : Onward s s := ⟨List.prefix_rfl, .inl (List.Subset.refl _)⟩

theorem Onward.trans (h : Onward s s1) (h' : Onward s1 s') : Onward s s' := by
  refine ⟨h.found.trans h'.found, ?_⟩
  obtain hm' | he' := h'.marks
  · obtain hm | he := h.marks
    · exact .inl (List.Subset.trans hm' hm)
    · exact .inr (Nat.lt_of_lt_of_le he h'.errors_le)
  · exact .inr he'

instance : IsPreorder PassState Onward where
  refl := .refl
  trans _ _ _ := .trans

instance : IsPreorder PassState Checked where
  refl s := ⟨.refl s, rfl⟩
  trans _ _ _ h h' := ⟨h.toOnward.trans h'.toOnward, h'.table.trans h.table⟩

/-- Without errors no node is marked. -/
theorem Onward.clean (h : Onward s s') (he : s'.errors = 0) (hm : s.marks = []) : s'.marks = [] := by
  obtain hsub | hpos := h.marks
  · exact List.subset_nil.1 (hm ▸ hsub)
  · omega

end

/-! ## What passes are made of -/

section

variable {α : Type} {n : Node} {above : List Node} {message : String}

@[grind ←] theorem Moves.onward {m : PassM α} (h : Moves Checked m) : Moves Onward m := fun s => (h s).toOnward

@[grind ←] theorem Moves.lift (e : Except Fault α) : Moves Checked (Pass.lift e) := fun s => ⟨.refl s, rfl⟩

@[grind ←] theorem onward_onTable (op : TableM α) : Moves Onward (Pass.onTable op) :=
  fun _ => ⟨List.prefix_rfl, .inl (List.Subset.refl _)⟩

theorem onward_modifyTable (f : SymbolTable → SymbolTable) :
    Moves Onward (modify fun s => { s with table := f s.table } : PassM Unit) :=
  .modify fun _ => ⟨List.prefix_rfl, .inl (List.Subset.refl _)⟩

@[grind ←] theorem checked_isMarked : Moves Checked (Pass.isMarked n) := .bind .get fun _ => .pure _

@[grind ←] theorem checked_anyMarked (ns : List Node) : Moves Checked (Pass.anyMarked ns) := .bind .get fun _ => .pure _

@[grind ←] theorem checked_pointAt (operand : Nat) : Moves Checked (Pass.pointAt n operand) :=
  .modify fun _ => ⟨⟨List.prefix_rfl, .inl (List.Subset.refl _)⟩, rfl⟩

theorem checked_placeOf : Moves Checked (Pass.placeOf n) := .bind .get fun _ => .lift _

theorem checked_unmark (id : Nat) : Moves Checked (Pass.unmark id) :=
  .modify fun _ => ⟨⟨List.prefix_rfl, .inl List.filter_sublist.subset⟩, rfl⟩

theorem checked_report (d : Diagnostic) : Moves Checked (Pass.report d) :=
  .modify fun _ => ⟨⟨by simp, .inl (List.Subset.refl _)⟩, rfl⟩

@[grind ←] theorem checked_warning : Moves Checked (Pass.warning n message) :=
  .bind checked_placeOf fun _ => .bind (checked_unmark _) fun _ => checked_report _

theorem outcome_marks (ids : List Nat) (s : PassState) :
    outcome (forIn ids PUnit.unit fun id _ => do
        Pass.mark id
        pure (.yield PUnit.unit) : PassM PUnit) s =
      (.ok PUnit.unit, { s with marks := ids.reverse ++ s.marks }) := by
  induction ids generalizing s with
  | nil => rfl
  | cons id ids ih =>
    simp only [List.forIn_cons, bind_assoc, pure_bind]
    rw [outcome_bind]
    simp only [Pass.mark, outcome_modify] at ih ⊢
    rw [ih]
    simp

/-- An error marks the nodes it is about, unless the place of the node is not known. -/
theorem outcome_error (s : PassState) : outcome (Pass.error n above message) s =
    match n.position (s.operands.lookup n.id) with
    | .ok (line, column) => (.ok (), { s with
        marks := (Pass.blamed n above).reverse ++ s.marks
        found := s.found.push (.error message (some line) (some column)) })
    | .error f => (.error f, s) := by
  have hplace : outcome (Pass.placeOf n) s = (n.position (s.operands.lookup n.id), s) := rfl
  rw [Pass.error, outcome_bind, hplace]
  rcases n.position (s.operands.lookup n.id) with f | ⟨line, column⟩
  · rfl
  · simp only
    rw [outcome_bind, outcome_marks]
    rfl

@[grind ←] theorem checked_error : Moves Checked (Pass.error n above message) := by
  intro s
  rw [outcome_error]
  split
  · refine ⟨⟨by simp, .inr ?_⟩, rfl⟩
    simp [PassState.errors, Diagnostic.errorCount, Diagnostic.error]
  · exact ⟨.refl s, rfl⟩

/-- A symbol that is in the way is marked with an error. -/
theorem onward_blame (node : Nat) (line column : Option Int) {x : α} : Moves Onward (do
    Pass.mark node
    Pass.report (.error message line column)
    pure x) := by
  intro s
  refine ⟨?_, .inr ?_⟩
  · change s.found.toList <+: (s.found.push _).toList
    simp
  · change 0 < Diagnostic.errorCount (s.found.push _).toList
    simp [Diagnostic.errorCount, Diagnostic.error]

@[grind ←] theorem onward_declare (judged kept : Symbol) : Moves Onward (Pass.declare n above judged kept) := by
  refine .bind (onward_onTable _) fun verdict => ?_
  cases verdict with
  | accept => cases kept <;> exact .bind (onward_onTable _) fun _ => .pure _
  | ignore => exact .pure _
  | undecided => exact .throw _
  | refuse message => exact .bind checked_error.onward fun _ => .pure _
  | blame message node place => exact onward_blame node _ _

end

/-! ## The passes -/

section

variable {n : Node} {above : List Node}

namespace Fill

@[grind ←] theorem onward_enterFunction (head : FunctionHead) : Moves Onward (enterFunction n above head) := by
  grind [enterFunction]

@[grind ←] theorem onward_enterObject (name : Option String) (type : CType) (byDeclarator : Bool) :
    Moves Onward (enterObject n above name type byDeclarator) := by
  grind [enterObject]

@[grind ←] theorem onward_checkParameter (head : ParameterHead) : Moves Onward (checkParameter n above head) := by
  grind [checkParameter]

mutual

@[grind ←] theorem onward_visit (above : List Node) (n : Node) : Moves Onward (visit above n) := by
  obtain ⟨id, kind, origin, children⟩ := n
  have ih := fun above => onward_visitAll above children
  rw [visit]
  refine .bind checked_isMarked.onward fun marked => ?_
  have hreset := onward_modifyTable SymbolTable.reset
  cases kind <;> grind

@[grind ←] theorem onward_visitAll (above : List Node) (ns : List Node) : Moves Onward (visitAll above ns) := by
  cases ns with
  | nil => exact .pure _
  | cons c cs => exact .bind (onward_visit above c) fun _ => .bind (onward_visitAll above cs) fun _ => .pure _

end

theorem onward_run (program : Node) : Moves Onward (run program) := onward_visit [] program

end Fill

namespace Resolve

@[grind ←] theorem onward_includeLibrary : Moves Onward includeLibrary := by
  grind [includeLibrary]

@[grind ←] theorem onward_entered (name : Option String) : Moves Onward (entered name) := by
  grind [entered]

@[grind ←] theorem onward_setSeen (v stage : Nat) : Moves Onward (setSeen v stage) :=
  .modify fun _ => ⟨List.prefix_rfl, .inl (List.Subset.refl _)⟩

@[grind ←] theorem onward_resolveName (name : String) : Moves Onward (resolveName n above name) := by
  grind [resolveName]

@[grind ←] theorem onward_resolveCall (name : Option String) : Moves Onward (resolveCall n above name) := by
  grind [resolveCall]

mutual

@[grind ←] theorem onward_visit (above : List Node) (n : Node) : Moves Onward (visit above n) := by
  obtain ⟨id, kind, origin, children⟩ := n
  have ih := fun above => onward_visitAll above children
  unfold visit
  cases kind <;> grind

@[grind ←] theorem onward_visitAll (above : List Node) (ns : List Node) : Moves Onward (visitAll above ns) := by
  cases ns with
  | nil => exact .pure _
  | cons c cs => exact .bind (onward_visit above c) fun _ => .bind (onward_visitAll above cs) fun _ => .pure _

end

theorem onward_run (program : Node) : Moves Onward (run program) := by
  have hstart := onward_modifyTable SymbolTable.startReplay
  have hreset := onward_modifyTable SymbolTable.reset
  have hvisit := onward_visit [] program
  grind [run]

end Resolve

namespace Check

@[grind ←] theorem checked_hasVoid (types : List CType) : Moves Checked (hasVoid n above types) := by
  induction types with
  | nil => exact .pure _
  | cons t types ih => grind [hasVoid]

@[grind ←] theorem checked_checkReturn : Moves Checked (checkReturn n above) := by
  unfold checkReturn
  dsimp only
  split
  · refine .bind (.lift _) fun function => ?_
    grind
  · grind

@[grind ←] theorem checked_dimensionsOk (name : String) (brackets : List Node) (count : Nat) (layers : List Layer) :
    Moves Checked (dimensionsOk n above name brackets count layers) := by
  induction layers generalizing count with
  | nil => exact .pure _
  | cons layer rest ih => grind [dimensionsOk]

@[grind ←] theorem checked_initializerOk (target : CType) (element : Node) (inside : List Node) :
    Moves Checked (initializerOk n above target element inside) := by
  unfold initializerOk
  refine .bind (.lift _) fun given => .bind (.lift _) fun isVoid => ?_
  grind

@[grind ←] theorem checked_checkElements (t : Target) (level : Nat) (elements : List Node) :
    Moves Checked (checkElements t level above elements) := by
  induction elements with
  | nil => exact .pure _
  | cons element rest ih => grind [checkElements]

@[grind ←] theorem checked_wrap (list element : Node) : Moves Checked (wrap list element) := by
  unfold wrap
  split
  · exact .pure _
  · exact fun _ => ⟨⟨List.prefix_rfl, .inl (List.Subset.refl _)⟩, rfl⟩

@[grind ←] theorem checked_checkFirst {check : Node → PassM Node} (h : ∀ n, Moves Checked (check n)) (count : Nat)
    (elements : List Node) : Moves Checked (checkFirst check count elements) := by
  induction elements generalizing count with
  | nil => cases count <;> exact .pure _
  | cons element rest ih => cases count <;> grind [checkFirst]

@[grind ←] theorem checked_checkList (t : Target) (below level : Nat) (list : Node) :
    Moves Checked (checkList t below level above list) := by
  induction below generalizing level above list with
  | zero => 
    unfold checkList
    grind
  | succ below ih =>
    unfold checkList
    refine .bind (.lift _) fun extent => ?_
    grind

@[grind ←] theorem checked_checkArgument (name : String) (index : Nat) (param : CType) (argument : Node) :
    Moves Checked (checkArgument n above name index param argument) := by
  unfold checkArgument
  refine .bind (.lift _) fun expected => .bind (.lift _) fun given => .bind (.lift _) fun isVoid => ?_
  grind

@[grind ←] theorem checked_checkArguments (name : String) (index : Nat) (params : List CType) (arguments : List Node) :
    Moves Checked (checkArguments n above name index params arguments) := by
  induction params generalizing index arguments with
  | nil => exact .pure _
  | cons param params ih => cases arguments <;> grind [checkArguments]

end Check

namespace Format

@[grind ←] theorem checked_argumentOk (reading : Bool) (s : Specifier) (type : CType) (number : Nat)
    (argument : Node) : Moves Checked (argumentOk n above reading s type number argument) := by
  unfold argumentOk
  refine .bind (.lift _) fun given => .bind (.lift _) fun agrees => ?_
  grind

@[grind ←] theorem checked_checkSpecifiers (reading : Bool) (format : List Char) (arguments : Array Node) (index : Nat)
    (cut : Cut) (specifiers : List Specifier) :
    Moves Checked (checkSpecifiers n above reading format arguments index cut specifiers) := by
  induction specifiers generalizing index cut with
  | nil => exact .pure _
  | cons s rest ih =>
    unfold checkSpecifiers
    refine .bind (.lift _) fun width => ?_
    grind

@[grind ←] theorem checked_check (name : String) (arguments : List Node) :
    Moves Checked (check n above name arguments) := by
  cases arguments <;> grind [check]

end Format

namespace Check

@[grind ←] theorem checked_checkCall (name : Option String) (callee : Option Callee) :
    Moves Checked (checkCall n above name callee) := by
  cases callee <;> grind [checkCall]

@[grind ←] theorem checked_checkDeclarator (head : DeclaratorHead) : Moves Checked (checkDeclarator n above head) := by
  unfold checkDeclarator
  refine .bind (.lift _) fun type => ?_
  extract_lets name levels initial dimensions
  have hinitial : ∀ u, Moves Checked (initial u) := by
    intro u
    simp only [initial]
    split
    · exact .bind (.lift _) fun _ => .pure _
    · refine .bind (.lift _) fun isArray => ?_
      grind
  have hdimensions : ∀ u, Moves Checked (dimensions u) := by
    intro u
    simp only [dimensions]
    grind
  refine .bind (.lift _) fun isVoid => ?_
  split
  · exact .bind checked_error hdimensions
  · exact hdimensions ()

@[grind ←] theorem checked_checkConditional : Moves Checked (checkConditional n above) := by
  unfold checkConditional
  refine .bind (.lift _) fun condition => .bind (.lift _) fun first => .bind (.lift _) fun second => ?_
  grind

@[grind ←] theorem checked_checkArith (op : ArithOp) : Moves Checked (checkArith n above op) := by
  unfold checkArith
  refine .bind (.lift _) fun left => .bind (.lift _) fun right => ?_
  grind

@[grind ←] theorem checked_checkAssign : Moves Checked (checkAssign n above) := by
  unfold checkAssign
  refine .bind (.lift _) fun target => .bind (.lift _) fun type? => .bind (.lift _) fun given =>
    .bind (.lift _) fun type => ?_
  grind

@[grind ←] theorem checked_checkLogic (op : LogicOp) : Moves Checked (checkLogic n above op) := by
  unfold checkLogic
  refine .bind (.lift _) fun left => .bind (.lift _) fun right => ?_
  grind

@[grind ←] theorem checked_checkCompare (op : CompareOp) : Moves Checked (checkCompare n above op) := by
  grind [checkCompare]

@[grind ←] theorem checked_checkUnary (op : UnaryOp) : Moves Checked (checkUnary n above op) := by
  grind [checkUnary]

@[grind ←] theorem checked_checkAddressOf : Moves Checked (checkAddressOf n above) := by
  grind [checkAddressOf]

@[grind ←] theorem checked_checkDereference : Moves Checked (checkDereference n above) := by
  grind [checkDereference]

@[grind ←] theorem checked_checkNot : Moves Checked (checkNot n above) := by
  grind [checkNot]

@[grind ←] theorem checked_checkSubscript : Moves Checked (checkSubscript n above) := by
  grind [checkSubscript]

@[grind ←] theorem checked_checkNode : Moves Checked (checkNode n above) := by
  unfold checkNode
  split <;> grind

mutual

theorem checked_visit (above : List Node) (n : Node) : Moves Checked (visit above n) := by
  obtain ⟨id, kind, origin, children⟩ := n
  have ih := fun above => checked_visitAll above children
  grind [visit]

theorem checked_visitAll (above : List Node) (ns : List Node) : Moves Checked (visitAll above ns) := by
  cases ns with
  | nil => exact .pure _
  | cons c cs => exact .bind (checked_visit above c) fun _ => .bind (checked_visitAll above cs) fun _ => .pure _

end

theorem checked_run (program : Node) : Moves Checked (run program) := checked_visit [] program

end Check

end

end MiniC
