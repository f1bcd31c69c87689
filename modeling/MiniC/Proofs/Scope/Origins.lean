import MiniC.Proofs.Pass.Onward
import MiniC.Proofs.Pass.Trees
import MiniC.Proofs.Scope.Replay

/-!
# Where symbols come from

Each symbol of a table was made for a node of the tree, except for the functions for input and output. The passes make
at most one for each node, in the order of the nodes: `Gains os t t'` says that the symbols that are new in `t'` have
their origins among `os`, in this order.
-/

namespace MiniC

variable {name : Option String} {u : Unit}

/-- What a symbol was made for: a variable, a parameter or a text, or a function with or without a body. -/
inductive Origin where
  | object (name : Option String)
  | function (name : Option String) (isDefinition isLibrary : Bool)
  deriving DecidableEq, Repr

/-- The node that a symbol was made for, and what it stands for. -/
def Symbol.origin : Symbol → Nat × Origin
  | .object o => (o.node, .object o.name)
  | .function f => (f.node, .function f.name f.form.isDefinition f.isLibrary)

/-- What a node makes a symbol for. -/
def Kind.origin? : Kind → Option Origin
  | .declarator head => some (.object head.name)
  | .parameter head => some (.object head.name)
  | .string .. => some (.object none)
  | .function head => some (.function head.name head.form.isDefinition false)
  | _ => none

@[simp] theorem Kind.origin?_bare (k : Kind) : k.bare.origin? = k.origin? := by cases k <;> rfl

namespace Node

mutual

/-- What the nodes of a tree make symbols for. -/
def origins : Node → List (Nat × Origin)
  | .mk id kind _ cs => (kind.origin?.map fun o => (id, o)).toList ++ originsAll cs

def originsAll : List Node → List (Nat × Origin)
  | [] => []
  | c :: cs => origins c ++ originsAll cs

end

mutual

theorem origins_bare (n : Node) : n.bare.origins = n.origins := by
  match n with
  | .mk id kind o cs => rw [bare, origins, origins, Kind.origin?_bare, originsAll_bare cs]

theorem originsAll_bare (ns : List Node) : originsAll (bareAll ns) = originsAll ns := by
  match ns with
  | [] => rfl
  | n :: ns => rw [bareAll, originsAll, originsAll, origins_bare n, originsAll_bare ns]

end

theorem origins_congr {n n' : Node} (h : n'.bare = n.bare) : n'.origins = n.origins := by
  rw [← origins_bare n', h, origins_bare]

mutual

/-- A node is the origin of one symbol at most. -/
theorem origins_sublist (n : Node) : (n.origins.map (·.1)).Sublist n.ids := by
  match n with
  | .mk id kind o cs =>
    have hcs := originsAll_sublist cs
    rw [origins, ids]
    cases kind.origin? with
    | none => exact hcs.cons id
    | some x => exact hcs.cons_cons id

theorem originsAll_sublist (ns : List Node) : ((originsAll ns).map (·.1)).Sublist (idsAll ns) := by
  match ns with
  | [] => exact .slnil
  | n :: ns =>
    rw [originsAll, idsAll, List.map_append]
    exact (origins_sublist n).append (originsAll_sublist ns)

end

end Node

namespace SymbolTable

variable {t t1 t' : SymbolTable} {s v : Nat} {os os' : List (Nat × Origin)}

def origins (t : SymbolTable) : List (Nat × Origin) := t.symbols.toList.map Symbol.origin

def Gains (os : List (Nat × Origin)) (t t' : SymbolTable) : Prop :=
  ∃ new, t'.origins = t.origins ++ new ∧ new.Sublist os

theorem Gains.of_eq (h : t'.origins = t.origins) : Gains os t t' := ⟨[], by simp [h], List.nil_sublist _⟩

theorem Gains.mono (h : Gains os t t') (hsub : os.Sublist os') : Gains os' t t' := by
  obtain ⟨new, heq, hnew⟩ := h
  exact ⟨new, heq, hnew.trans hsub⟩

theorem Gains.append (h : Gains os t t1) (h' : Gains os' t1 t') : Gains (os ++ os') t t' := by
  obtain ⟨new, heq, hnew⟩ := h
  obtain ⟨new', heq', hnew'⟩ := h'
  exact ⟨new ++ new', by rw [heq', heq, List.append_assoc], hnew.append hnew'⟩

theorem origin_mem (hv : v < t.symbols.size) : (t.symbol v).origin ∈ t.origins := by
  refine List.mem_map_of_mem ?_
  rw [symbol, Array.getElem?_eq_getElem hv]
  exact Array.getElem_mem_toList hv

/-! ## Operations -/

theorem origins_modifySymbol {f : Symbol → Symbol} (h : ∀ x, (f x).origin = x.origin) (t : SymbolTable) (v : Nat) :
    (t.modifySymbol v f).origins = t.origins := by
  refine List.ext_getElem? fun i => ?_
  simp only [origins, modifySymbol, List.getElem?_map, Array.getElem?_toList, Array.getElem?_modify]
  split
  · cases t.symbols[i]? <;> simp [h]
  · rfl

theorem origins_added (t : SymbolTable) (x : Symbol) : (t.added x).origins = t.origins ++ [x.origin] := by
  simp [origins, added]

theorem origin_unseen (x : Symbol) : x.unseen.origin = x.origin := by cases x <;> rfl

theorem origin_setSeen (stage : Nat) (x : Symbol) : (x.setSeen stage).origin = x.origin := by cases x <;> rfl

theorem origins_forgetSeen (t : SymbolTable) (s : Nat) : (t.forgetSeen s).origins = t.origins := by
  rw [forgetSeen_eq]
  generalize t.entries s = es
  induction es generalizing t with
  | nil => rfl
  | cons e es ih => rw [List.foldl_cons, ih, origins_modifySymbol origin_unseen]

theorem of_runs_addSymbol {x : Symbol} (h : Runs (addSymbol x) t v t') : t' = t.added x := by
  have hrest := runs_get_bind.1 h
  have hrest := runs_set_bind.1 hrest
  exact (runs_pure.1 hrest).2

theorem origins_makeScope {isFunction : Bool} (h : Runs (makeScope isFunction name) t u t') :
    t'.origins = t.origins := by
  obtain ⟨s, t1, hs, hrest⟩ := runs_bind.1 h
  obtain ⟨-, rfl⟩ := of_runs_currentScope hs
  obtain rfl := runs_modify.1 hrest
  rfl

theorem origins_replayScope (h : Runs (replayScope name) t u t') : t'.origins = t.origins := by
  obtain ⟨s, t1, hs, hrest⟩ := runs_bind.1 h
  obtain ⟨-, rfl⟩ := of_runs_currentScope hs
  have hrest := runs_get_bind.1 hrest
  dsimp only at hrest
  split at hrest
  · exact (runs_throw.1 hrest).elim
  · obtain rfl := runs_set.1 hrest
    exact origins_forgetSeen _ _

theorem origins_openScope {isFunction : Bool} (h : Runs (openScope isFunction name) t u t') :
    t'.origins = t.origins := by
  have hopen : ∀ {t1 : SymbolTable}, Runs (do
      let t ← get
      if t.replaying then replayScope name else makeScope isFunction name) t1 u t' → t'.origins = t1.origins := by
    intro t1 hrun
    have hrun := runs_get_bind.1 hrun
    split at hrun
    · exact origins_replayScope hrun
    · exact origins_makeScope hrun
  have hrest := runs_modify_bind.1 h
  cases isFunction with
  | true => exact (hopen (runs_modify_bind.1 hrest)).trans rfl
  | false => exact (hopen hrest).trans rfl

theorem origins_closeScope (h : Runs closeScope t u t') : t'.origins = t.origins := by
  have hrest := runs_modify_bind.1 h
  obtain ⟨s, t1, hs, hlast⟩ := runs_bind.1 hrest
  obtain ⟨-, rfl⟩ := of_runs_currentScope hs
  obtain rfl := runs_modify.1 hlast
  rfl

theorem origins_assignAddress {frame : Nat} {listed : Bool} (h : Runs (assignAddress frame v listed) t u t') :
    t'.origins = t.origins := by
  have hrest := runs_get_bind.1 h
  have hrest := runs_set_bind.1 hrest
  obtain ⟨size, -, hlast⟩ := runs_table_lift_bind.1 hrest
  obtain rfl := runs_modify.1 hlast
  cases listed <;> exact origins_modifySymbol (fun x => by cases x <;> rfl) t v

theorem origins_insert {x : Symbol} (h : Runs (insert x) t v t') : t'.origins = t.origins ++ [x.origin] := by
  obtain ⟨s, t1, hs, hrest⟩ := runs_bind.1 h
  obtain ⟨-, rfl⟩ := of_runs_currentScope hs
  obtain ⟨w, t2, hadd, hrest⟩ := runs_bind.1 hrest
  obtain rfl := of_runs_addSymbol hadd
  have hlast : ∀ {t3 : SymbolTable}, Runs (do
      modify fun t => t.modifyScope s fun scope => { scope with symbols := enterName scope.symbols x.name w }
      return w) t3 v t' → t'.origins = t3.origins := by
    intro t3 hlast
    have hpure := runs_modify_bind.1 hlast
    obtain ⟨-, rfl⟩ := runs_pure.1 hpure
    rfl
  rw [← origins_added]
  cases x with
  | function f => exact hlast hrest
  | object o =>
    have hrest := runs_get_bind.1 hrest
    obtain ⟨_, t3, haddress, hrest⟩ := runs_bind.1 hrest
    rw [hlast hrest, origins_assignAddress haddress]

theorem origins_insertString {raw : String} {codes : List Nat} {node : Nat} {type : CType}
    (h : Runs (insertString raw codes node type) t u t') : Gains [(node, .object none)] t t' := by
  have hrest := runs_get_bind.1 h
  split at hrest
  · obtain ⟨-, rfl⟩ := runs_pure.1 hrest
    exact .of_eq rfl
  · obtain ⟨w, t1, hadd, hrest⟩ := runs_bind.1 hrest
    obtain rfl := of_runs_addSymbol hadd
    obtain ⟨_, t2, haddress, hlast⟩ := runs_bind.1 hrest
    obtain rfl := runs_modify.1 hlast
    refine ⟨_, (origins_assignAddress haddress).trans (origins_added t _), List.Sublist.refl _⟩

end SymbolTable

/-! ## The first pass -/

open SymbolTable

/-- What a pass makes symbols for. -/
def Adds {α : Type} (os : List (Nat × Origin)) (m : PassM α) : Prop :=
  ∀ s a s', Runs m s a s' → Gains os s.table s'.table

section

variable {α β : Type} {m : PassM α} {f : α → PassM β} {os os' : List (Nat × Origin)} {n : Node} {above : List Node}

theorem Adds.mono (h : Adds os m) (hsub : os.Sublist os') : Adds os' m := fun s a s' hr => (h s a s' hr).mono hsub

theorem Adds.of_checked (h : Moves Checked m) : Adds os m := fun s a s' hr => .of_eq (by rw [(h.runs hr).table])

theorem Adds.pure (a : α) : Adds os (pure a) := .of_checked (.pure a)

theorem Adds.bind (h : Adds os m) (h' : ∀ a, Adds os' (f a)) : Adds (os ++ os') (m >>= f) := by
  intro s b s' hr
  obtain ⟨a, s1, hm, hf⟩ := runs_bind.1 hr
  exact (h s a s1 hm).append (h' a s1 b s' hf)

theorem Adds.seq (h : Adds [] m) (h' : ∀ a, Adds os (f a)) : Adds os (m >>= f) := h.bind h'

theorem Adds.last (h : Adds os m) (h' : ∀ a, Adds [] (f a)) : Adds os (m >>= f) := by
  have := h.bind h'
  rwa [List.append_nil] at this

theorem Adds.throw (e : Fault) : Adds os (throw e : PassM α) := fun _ _ _ hr => (runs_throw.1 hr).elim

theorem Adds.ite {c : Prop} [Decidable c] {k : PassM α} (h : Adds os m) (h' : Adds os k) : Adds os (if c then m else k) := by
  split
  · exact h
  · exact h'

theorem Adds.when {c : Prop} [Decidable c] {m : PassM Unit} {k : Unit → PassM β} (h : Adds [] m) (h' : ∀ u, Adds os (k u)) :
    Adds os (if c then m >>= k else k ()) := .ite (.seq h h') (h' ())

theorem Adds.onTable {op : TableM α} (h : ∀ t a t', Runs op t a t' → Gains os t t') : Adds os (Pass.onTable op) := by
  intro s a s' hr
  obtain ⟨t, ht, rfl⟩ := runs_onTable.1 hr
  exact h _ _ _ ht

theorem adds_openScope (isFunction : Bool) (name : Option String) : Adds [] (Pass.onTable (openScope isFunction name)) :=
  .onTable fun _ _ _ h => .of_eq (origins_openScope h)

theorem adds_closeScope : Adds [] (Pass.onTable closeScope) := .onTable fun _ _ _ h => .of_eq (origins_closeScope h)

theorem adds_declare (judged kept : Symbol) : Adds [kept.origin] (Pass.declare n above judged kept) := by
  refine .seq (.onTable fun t r t' h => .of_eq (by rw [table_of_verdict h])) fun verdict => ?_
  cases verdict with
  | accept =>
    cases kept with
    | object o => exact .last (.onTable fun t v t' h => ⟨_, origins_insert h, List.Sublist.refl _⟩) fun _ => .pure _
    | function f =>
      refine .last (.onTable fun t v t' h => ?_) fun _ => .pure _
      exact ⟨_, origins_insert (runs_get_bind.1 h), List.Sublist.refl _⟩
  | ignore => exact .pure _
  | undecided => exact .throw _
  | refuse message => exact .seq (.of_checked checked_error) fun _ => .pure _
  | blame message node place =>
    intro s a s' hr
    obtain ⟨_, s1, hmark, hrest⟩ := runs_bind.1 hr
    obtain rfl := runs_modify.1 hmark
    obtain ⟨_, s2, hreport, hlast⟩ := runs_bind.1 hrest
    obtain rfl := runs_modify.1 hreport
    obtain ⟨-, rfl⟩ := runs_pure.1 hlast
    exact .of_eq rfl

end

namespace Fill

variable {n : Node} {above : List Node}

theorem adds_enterObject (name : Option String) (type : CType) (byDeclarator : Bool) :
    Adds [(n.id, .object name)] (enterObject n above name type byDeclarator) :=
  .seq (.of_checked (.lift _)) fun _ => adds_declare _ _

theorem adds_enterFunction (head : FunctionHead) :
    Adds [(n.id, .function head.name head.form.isDefinition false)] (enterFunction n above head) :=
  .seq (.of_checked (.lift _)) fun _ => .last (adds_declare _ _) fun _ => .pure _

theorem checked_checkParameter (head : ParameterHead) : Moves Checked (checkParameter n above head) := by
  grind [checkParameter]

theorem adds_unmarked {os : List (Nat × Origin)} {m : PassM Node} (h : Adds os m) :
    Adds os (do
      if ← Pass.isMarked n then return n
      m) := .seq (.of_checked checked_isMarked) fun _ => .ite (.pure _) h

section

variable {id : Nat} {o : Option ParseTree} {cs : List Node}

theorem adds_function {head : FunctionHead}
    (hall : Adds (Node.originsAll cs) (visitAll (.mk id (.function head) o cs :: above) cs)) :
    Adds (Node.origins (.mk id (.function head) o cs)) (visit above (.mk id (.function head) o cs)) := by
  unfold visit
  refine adds_unmarked ?_
  dsimp only
  refine .ite (.ite (.seq (.of_checked checked_warning) fun _ => ?_) (.seq (.of_checked checked_warning) fun _ => ?_)) ?_
  all_goals
    exact .bind (adds_enterFunction head) fun refused => .ite (.pure _) (.when (adds_openScope true head.name) fun _ =>
      .last hall fun _ => .when adds_closeScope fun _ => .pure _)

theorem adds_declarator {head : DeclaratorHead}
    (hall : Adds (Node.originsAll cs) (visitAll (.mk id (.declarator head) o cs :: above) cs)) :
    Adds (Node.origins (.mk id (.declarator head) o cs)) (visit above (.mk id (.declarator head) o cs)) := by
  unfold visit
  refine adds_unmarked ?_
  dsimp only
  split
  · exact .seq (.pure _) fun spec => .when (.of_checked checked_warning) fun _ => .seq (.of_checked (.lift _)) fun type =>
      .bind (adds_enterObject _ _ _) fun r => .ite (.pure _) (.last hall fun _ => .pure _)
  · exact .seq (.throw _) fun spec => .when (.of_checked checked_warning) fun _ => .seq (.of_checked (.lift _)) fun type =>
      .bind (adds_enterObject _ _ _) fun r => .ite (.pure _) (.last hall fun _ => .pure _)

theorem adds_parameter {head : ParameterHead}
    (hall : Adds (Node.originsAll cs) (visitAll (.mk id (.parameter head) o cs :: above) cs)) :
    Adds (Node.origins (.mk id (.parameter head) o cs)) (visit above (.mk id (.parameter head) o cs)) := by
  unfold visit
  refine adds_unmarked ?_
  dsimp only
  refine .seq (.of_checked (checked_checkParameter head)) fun ok => .ite (.pure _) (.ite ?_ ?_)
  · exact (hall.last fun _ => .pure _).mono (List.sublist_append_right _ _)
  · have hname : (decay head).name = head.name := by unfold decay; split <;> rfl
    rw [hname]
    exact .bind (adds_enterObject _ _ _) fun r => .ite (.pure _) (.last hall fun _ => .pure _)

end

mutual

theorem adds_visit (above : List Node) (n : Node) : Adds n.origins (visit above n) := by
  match n with
  | .mk id kind o cs =>
    have hall := adds_visitAll (.mk id kind o cs :: above) cs
    cases kind with
    | function head => exact adds_function hall
    | declarator head => exact adds_declarator hall
    | parameter head => exact adds_parameter hall
    | breakStmt =>
      rw [visit]
      exact adds_unmarked (.when (.of_checked checked_error) fun _ => .pure _)
    | continueStmt =>
      rw [visit]
      exact adds_unmarked (.when (.of_checked checked_error) fun _ => .pure _)
    | cast spec layers =>
      rw [visit]
      exact adds_unmarked (.when (.of_checked checked_warning) fun _ => .pure _)
    | statements =>
      rw [visit]
      exact adds_unmarked (.when (adds_openScope false none) fun _ => .last hall fun _ => .when adds_closeScope fun _ => .pure _)
    | forLoop a b c =>
      rw [visit]
      exact adds_unmarked (.seq (adds_openScope false none) fun _ => .last hall fun _ => .seq adds_closeScope fun _ => .pure _)
    | program =>
      have hreset : Adds [] (modify fun s => { s with table := s.table.reset } : PassM Unit) := fun s _ s' hr =>
        .of_eq (by rw [runs_modify.1 hr]; rfl)
      rw [visit]
      exact adds_unmarked (hall.last fun _ => .seq hreset fun _ => .pure _)
    | string raw codes =>
      have hstring : ∀ type, Adds ((id, .object none) :: Node.originsAll cs) (Pass.onTable (insertString raw codes id type)) :=
        fun type => .mono (.onTable fun _ _ _ h => origins_insertString h) (List.sublist_append_left _ _)
      rw [visit]
      exact adds_unmarked (.seq (.of_checked (.lift _)) fun type => (hstring type).last fun _ => .pure _)
    | _ =>
      rw [visit]
      exact adds_unmarked (hall.last fun _ => .pure _)

theorem adds_visitAll (above ns : List Node) : Adds (Node.originsAll ns) (visitAll above ns) := by
  match ns with
  | [] => rw [visitAll]; exact .pure _
  | n :: ns =>
    rw [visitAll]
    exact .bind (adds_visit above n) fun _ => .last (adds_visitAll above ns) fun _ => .pure _

end

end Fill

/-! ## The second pass -/

/-- The functions for input and output. -/
def libraryOrigins : List (Nat × Origin) :=
  [(0, .function (some "printf") true true), (0, .function (some "scanf") true true)]

def Kind.libraries : Kind → List (Nat × Origin)
  | .includeFile .. => libraryOrigins
  | _ => []

namespace Node

mutual

/-- The functions that the nodes of a tree enter: those for input and output, once for each time they are asked for. -/
def libraries : Node → List (Nat × Origin)
  | .mk _ kind _ cs => kind.libraries ++ librariesAll cs

def librariesAll : List Node → List (Nat × Origin)
  | [] => []
  | c :: cs => libraries c ++ librariesAll cs

end

mutual

theorem mem_libraries (n : Node) : ∀ o ∈ n.libraries, o ∈ libraryOrigins := by
  match n with
  | .mk id kind o cs =>
    have hcs := mem_librariesAll cs
    intro x hx
    rw [libraries] at hx
    obtain hx | hx := List.mem_append.1 hx
    · cases kind <;> first | exact hx | cases hx
    · exact hcs x hx

theorem mem_librariesAll (ns : List Node) : ∀ o ∈ librariesAll ns, o ∈ libraryOrigins := by
  match ns with
  | [] => simp [librariesAll]
  | n :: ns =>
    intro x hx
    obtain hx | hx := List.mem_append.1 hx
    · exact mem_libraries n x hx
    · exact mem_librariesAll ns x hx

end

end Node

namespace Resolve

variable {n : Node} {above : List Node} {os : List (Nat × Origin)}

theorem adds_insertFunction (f : FunctionSymbol) : Adds [(Symbol.function f).origin] (Pass.onTable (insertFunction f)) :=
  .onTable fun _ _ _ h => ⟨_, origins_insert (runs_get_bind.1 h), List.Sublist.refl _⟩

theorem adds_verdict (x : Symbol) : Adds [] (Pass.onTable (verdict x)) :=
  .onTable fun _ _ _ h => .of_eq (by rw [table_of_verdict h])

theorem adds_includeLibrary : Adds libraryOrigins includeLibrary := by
  have hlast : ∀ second, Adds [(0, .function (some "scanf") true true)] (do
      if includeLibrary.inserts second then let _ ← Pass.onTable (insertFunction (libraryFunction "scanf"))) :=
    fun second => .ite (.last (adds_insertFunction _) fun _ => .pure _) (.pure _)
  refine .seq (adds_verdict _) fun first => .seq (adds_verdict _) fun second => .ite ?_ ?_
  · exact .bind (adds_insertFunction (libraryFunction "printf")) fun _ => hlast second
  · exact (hlast second).mono (List.sublist_cons_self _ _)

theorem adds_setSeen (v stage : Nat) : Adds [] (setSeen v stage) := fun s _ s' hr =>
  .of_eq (by rw [runs_modify.1 hr]; exact origins_modifySymbol (origin_setSeen stage) _ _)

theorem adds_entered (name : Option String) : Adds [] (entered name) := by
  intro s v s' hr
  have hrest := runs_get_bind.1 hr
  split at hrest
  · obtain ⟨-, rfl⟩ := runs_pure.1 hrest
    exact .of_eq rfl
  · exact (runs_throw.1 hrest).elim

theorem checked_resolveName (name : String) : Moves Checked (resolveName n above name) := by
  grind [resolveName]

theorem checked_resolveCall (name : Option String) : Moves Checked (resolveCall n above name) := by
  grind [resolveCall]

theorem adds_unmarked {m : PassM Node} (h : Adds os m) :
    Adds os (do
      if ← Pass.isMarked n then return n
      m) := .seq (.of_checked checked_isMarked) fun _ => .ite (.pure _) h

mutual

theorem adds_visit (above : List Node) (n : Node) : Adds n.libraries (visit above n) := by
  match n with
  | .mk id kind o cs =>
    have hall := adds_visitAll (.mk id kind o cs :: above) cs
    cases kind with
    | includeFile std name =>
      have hinclude : Adds libraryOrigins (visit above (.mk id (.includeFile std name) o cs)) := by
        unfold visit
        exact .ite (.last adds_includeLibrary fun _ => .pure _) (.pure _)
      exact hinclude.mono (List.sublist_append_left _ _)
    | parameter head =>
      unfold visit
      exact adds_unmarked (.ite (.seq (adds_entered _) fun v => .seq (adds_setSeen v 2) fun _ => .pure _) (.pure _))
    | declarator head =>
      unfold visit
      exact adds_unmarked (.seq (adds_entered _) fun v => .seq (adds_setSeen v 1) fun _ => .last hall fun _ =>
        .seq (adds_setSeen v 2) fun _ => .pure _)
    | name text type symbol =>
      unfold visit
      exact adds_unmarked (.of_checked (checked_resolveName _))
    | function head =>
      unfold visit
      exact adds_unmarked (.ite (.seq (adds_openScope _ _) fun _ => .last hall fun _ => .seq adds_closeScope fun _ => .pure _)
        (hall.last fun _ => .pure _))
    | call called callee pieces =>
      unfold visit
      refine adds_unmarked (.seq (.of_checked (checked_resolveCall called)) fun r => ?_)
      cases r with
      | none => exact .pure _
      | some callee => exact hall.last fun _ => .pure _
    | statements =>
      unfold visit
      exact adds_unmarked (.when (adds_openScope false none) fun _ => .last hall fun _ => .when adds_closeScope fun _ => .pure _)
    | forLoop a b c =>
      unfold visit
      exact adds_unmarked (.seq (adds_openScope false none) fun _ => .last hall fun _ => .seq adds_closeScope fun _ => .pure _)
    | _ =>
      unfold visit
      exact adds_unmarked (hall.last fun _ => .pure _)

theorem adds_visitAll (above ns : List Node) : Adds (Node.librariesAll ns) (visitAll above ns) := by
  match ns with
  | [] => rw [visitAll]; exact .pure _
  | n :: ns =>
    rw [visitAll]
    exact .bind (adds_visit above n) fun _ => .last (adds_visitAll above ns) fun _ => .pure _

end

end Resolve

end MiniC
