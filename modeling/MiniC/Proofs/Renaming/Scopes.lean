import MiniC.Proofs.Renaming.Passes

/-!
# Scopes under other names

The first two passes do the same on a tree with other names of variables. The first enters the same symbols in the same
scopes, if it refuses none. The second finds the same symbol for each name: the variable with the new name where the one
with the old name was.
-/

namespace MiniC

open SymbolTable

open Node (Renamed RenamedAll)

/-- The names that a node declares are among those of variables, or of functions. -/
def Renaming.Covers (r : Renaming) : Kind → Prop
  | .declarator head => ∀ x, head.name = some x → x ∈ r.objects
  | .parameter head => ∀ x, head.name = some x → x ∈ r.objects
  | .function head => ∀ x, head.name = some x → x ∈ r.functions
  | _ => True

variable {r : Renaming} {n n' : Node} {above above' : List Node}

/-! ## The first pass -/

namespace Fill

theorem echoes_declare {judged judged' kept kept' : Symbol} (hjudged : judged.Alike r judged') (hkept : kept.Alike r kept')
    (hadmits : r.Admits judged judged.name) (hname : kept.name = judged.name) (hobject : kept.isObject = judged.isObject) :
    Echoes r PassState.ErrorFree Eq (Pass.declare n above judged kept) (Pass.declare n' above' judged' kept') := by
  intro s s' result t hs hr hend
  obtain ⟨verdict, s1, hv, hrest⟩ := runs_bind.1 hr
  obtain ⟨u, hu, rfl⟩ := runs_onTable.1 hv
  cases verdict with
  | accept =>
    obtain ⟨rfl, hu', hfits⟩ := hs.table.verdict hjudged hadmits (.inl rfl) hu
    have hfits : s.table.Fits kept := by
      unfold Fits
      rw [hname, hobject]
      exact hfits rfl
    rw [← hname, ← Renaming.admits_congr hobject] at hadmits
    cases hkept with
    | object p place =>
      obtain ⟨v, s2, hins, hlast⟩ := runs_bind.1 hrest
      obtain ⟨rfl, rfl⟩ := runs_pure.1 hlast
      obtain ⟨w, hw, rfl⟩ := runs_onTable.1 hins
      obtain ⟨w', hw', halike⟩ := hs.table.insertObject place hadmits hfits hw
      refine ⟨_, { s' with table := w' }, runs_bind.2 ⟨.accept, s', runs_onTable.2 ⟨_, hu', rfl⟩, ?_⟩, rfl, hs.withTable halike⟩
      exact runs_bind.2 ⟨v, _, runs_onTable.2 ⟨w', hw', rfl⟩, runs_pure.2 ⟨rfl, rfl⟩⟩
    | function g place =>
      obtain ⟨v, s2, hins, hlast⟩ := runs_bind.1 hrest
      obtain ⟨rfl, rfl⟩ := runs_pure.1 hlast
      obtain ⟨w, hw, rfl⟩ := runs_onTable.1 hins
      obtain ⟨w', hw', halike⟩ := hs.table.insertFunction place hadmits hfits hw
      refine ⟨_, { s' with table := w' }, runs_bind.2 ⟨.accept, s', runs_onTable.2 ⟨_, hu', rfl⟩, ?_⟩, rfl, hs.withTable halike⟩
      exact runs_bind.2 ⟨v, _, runs_onTable.2 ⟨w', hw', rfl⟩, runs_pure.2 ⟨rfl, rfl⟩⟩
  | ignore =>
    obtain ⟨rfl, rfl⟩ := runs_pure.1 hrest
    obtain ⟨rfl, hu', -⟩ := hs.table.verdict hjudged hadmits (.inr rfl) hu
    exact ⟨_, s', runs_bind.2 ⟨.ignore, s', runs_onTable.2 ⟨_, hu', rfl⟩, runs_pure.2 ⟨rfl, rfl⟩⟩, rfl, hs⟩
  | undecided => simp at hrest
  | refuse message => exact (not_errorFree_of_error (fun _ => .pure _) hrest hend).elim
  | blame message node place =>
    simp [Pass.mark, Pass.report] at hrest
    simp [hrest.1, PassState.ErrorFree, PassState.errors, Diagnostic.errorCount, Diagnostic.error] at hend

theorem echoes_enterObject (hn : Renamed r.map n n') {name : Option String} (hname : ∀ x, name = some x → x ∈ r.objects)
    (type : CType) (byDeclarator : Bool) :
    Echoes r PassState.ErrorFree Eq (enterObject n above name type byDeclarator)
      (enterObject n' above' (name.map r.map) type byDeclarator) := by
  refine .after (A := fun _ _ => True) (.mk fun p hp => ?_) fun p p' _ => ?_
  · obtain ⟨p', hp'⟩ := hn.position hp
    exact ⟨p', hp', trivial⟩
  · rw [hn.id_eq]
    exact echoes_declare (.object _ p') (.object _ p') hname rfl rfl

theorem decay_renamed (head : ParameterHead) :
    decay { head with name := head.name.map r.map } = { decay head with name := (decay head).name.map r.map } := by
  unfold decay
  dsimp only
  split <;> rfl

theorem decay_name (head : ParameterHead) : (decay head).name = head.name := by
  unfold decay
  split <;> rfl

theorem parameterTypes_renamed (hn : Renamed r.map n n') {g : ParameterHead → ParameterHead}
    (hg : ∀ head, parameterType (g { head with name := head.name.map r.map }) = parameterType (g head)) :
    parameterTypes n' g = parameterTypes n g := by
  have hlist := hn.parameters?
  unfold parameterTypes
  generalize n.parameters? = a at hlist ⊢
  generalize n'.parameters? = a' at hlist ⊢
  cases hlist with
  | none => rfl
  | @some a a' hl =>
    have hchildren := hl.children
    rw [Option.map_some, Option.map_some]
    congr 1
    generalize a.children = ps at hchildren ⊢
    generalize a'.children = ps' at hchildren ⊢
    induction hchildren with
    | nil => rfl
    | @cons p p' ps ps' hp _ ih =>
      have hkind := hp.kind_eq
      rw [List.filterMap_cons, List.filterMap_cons, ih, hkind]
      cases p.kind with
      | parameter head => simp only [Kind.rename, hg]
      | _ => rfl

theorem echoes_enterFunction (hn : Renamed r.map n n') {head : FunctionHead}
    (hname : ∀ x, head.name = some x → x ∈ r.functions) :
    Echoes r PassState.ErrorFree Eq (enterFunction n above head) (enterFunction n' above' head) := by
  have hsettled : ∀ p : ParameterHead, parameterType (settled head.form { p with name := p.name.map r.map }) =
      parameterType (settled head.form p) := fun p => by
    have hvoid : isVoid { p with name := p.name.map r.map } = isVoid p := rfl
    simp only [settled, hvoid, Option.isSome_map, decay_renamed]
    split <;> rfl
  refine .after (A := fun _ _ => True) (.mk fun p hp => ?_) fun p p' _ => ?_
  · obtain ⟨p', hp'⟩ := hn.position hp
    exact ⟨p', hp', trivial⟩
  · simp only [functionSymbol, parameterTypes_renamed hn hsettled, parameterTypes_renamed hn (g := id) fun _ => rfl, hn.id_eq]
    refine .bind (fun _ => .pure _) (echoes_declare (.function _ p') (.function _ p') hname rfl rfl) fun a b hab => ?_
    exact hab ▸ .pure rfl

theorem opensScope_renamed (habove : RenamedAll r.map above above') : opensScope above' = opensScope above := by
  cases habove with
  | nil => rfl
  | cons hparent _ => simp only [opensScope, hparent.kind_eq, Kind.isDefinition_rename, Kind.isFor_rename]

theorem loopAround?_renamed (habove : RenamedAll r.map above above') :
    (loopAround? above').isNone = (loopAround? above).isNone := by
  have hrel : Option.Rel (Renamed r.map) (loopAround? above) (loopAround? above') :=
    rel_find? habove fun n n' hn => by rw [hn.kind_eq, Kind.isLoop_rename]
  generalize loopAround? above = a at hrel ⊢
  generalize loopAround? above' = a' at hrel ⊢
  cases hrel <;> rfl

theorem mirrors_checkParameter (hn : Renamed r.map n n') (habove : RenamedAll r.map above above')
    (head : ParameterHead) : Repeats r Eq (checkParameter n above head)
      (checkParameter n' above' { head with name := head.name.map r.map }) := by
  have hvoid : isVoid { head with name := head.name.map r.map } = isVoid head := rfl
  have hcount : (above'.head?.map fun list => list.children.length) = above.head?.map fun list => list.children.length := by
    cases habove with
    | nil => rfl
    | cons hparent _ => simp only [List.head?_cons, Option.map_some, hparent.children.length_eq]
  have herror : ∀ message message', Repeats r Eq (Pass.error n above message >>= fun _ => pure false)
      (Pass.error n' above' message' >>= fun _ => pure false) := fun message message' =>
    .andThen (mirrors_error hn habove message message') fun _ => .pure rfl
  unfold checkParameter
  simp only [hvoid, Option.isNone_map, hcount, Node.any_renamed habove Kind.isDefinition_rename]
  refine .ite .rfl (fun _ => .ite .rfl (fun _ => .ite .rfl (fun _ => herror _ _) fun _ => .pure rfl) fun _ => herror _ _) fun _ =>
    .ite .rfl (fun _ => herror _ _) fun _ => .when .rfl (fun _ => mirrors_warning hn _ _) fun _ => .pure rfl

section

variable {cs cs' inside inside' : List Node}
  (hcs : Echoes r PassState.ErrorFree (RenamedAll r.map) (visitAll inside cs) (visitAll inside' cs'))

include hcs

theorem echoes_entering (hn : Renamed r.map n n') {name : Option String} (hname : ∀ x, name = some x → x ∈ r.objects)
    (type : CType) (byDeclarator : Bool) {f f' : Option Nat → List Node → Node}
    (hf : ∀ v ds ds', RenamedAll r.map ds ds' → Renamed r.map (f v ds) (f' v ds')) :
    Echoes r PassState.ErrorFree (Renamed r.map) (entering n above name type byDeclarator cs inside f)
      (entering n' above' (name.map r.map) type byDeclarator cs' inside' f') := by
  refine .bind (fun a => ?_) (echoes_enterObject hn hname type byDeclarator) fun a b hab => ?_
  · have hbelow := onward_visitAll inside cs
    exact .errorFree (by grind)
  · subst hab
    exact .ite .rfl (fun _ => .pure hn) fun _ => .bind (fun _ => .pure _) hcs fun ds ds' hds => .pure (hf _ ds ds' hds)

/-- A function is entered, and unless it is refused its parameters and its body are visited. -/
theorem echoes_function (above above' : List Node) {head : FunctionHead} (hn : Renamed r.map n n')
    (hname : ∀ x, head.name = some x → x ∈ r.functions) :
    Echoes r PassState.ErrorFree (Renamed r.map) (do
      if ← enterFunction n above head then return n
      if head.form.isDefinition then Pass.onTable (SymbolTable.openScope true head.name)
      let children ← visitAll inside cs
      if head.form.isDefinition then Pass.onTable SymbolTable.closeScope
      return n.withChildren children) (do
      if ← enterFunction n' above' head then return n'
      if head.form.isDefinition then Pass.onTable (SymbolTable.openScope true head.name)
      let children ← visitAll inside' cs'
      if head.form.isDefinition then Pass.onTable SymbolTable.closeScope
      return n'.withChildren children) := by
  refine .bind (fun a => ?_) (echoes_enterFunction hn hname) fun a b hab => ?_
  · have hbelow := onward_visitAll inside cs
    exact .errorFree (by grind)
  · subst hab
    exact .ite .rfl (fun _ => .pure hn) fun _ =>
      .scoped _ _ .rfl true head.name (onward_onTable _).errorFree hn hcs

end

mutual

theorem echoes_visit (n : Node) {n' : Node} {above above' : List Node} (hn : Renamed r.map n n') (hcover : n.Each r.Covers)
    (habove : RenamedAll r.map above above') :
    Echoes r PassState.ErrorFree (Renamed r.map) (visit above n) (visit above' n') := by
  match n, hn with
  | .mk id kind o cs, @Node.Renamed.mk _ _ _ _ o' _ cs' ho hchildren =>
    have hself : Renamed r.map (.mk id kind o cs) (.mk id (kind.rename r.map) o' cs') := .mk ho hchildren
    have hcs := echoes_visitAll cs hchildren hcover.2 (.cons hself habove)
    have hclose := (onward_onTable SymbolTable.closeScope).errorFree
    rw [visit, visit]
    refine .andThen (mirrors_isMarked hself) fun marked => .ite .rfl (fun _ => .pure hself) fun _ => ?_
    cases kind with
    | program =>
      refine .bind (fun _ => .bind (.errorFree (onward_modifyTable _)) fun _ => .pure _) hcs fun ds ds' hds => ?_
      exact .andThen (mirrors_modifyTable fun _ _ ht => ht.reset) fun _ => .pure (hself.withChildren hds)
    | string raw codes =>
      exact .andThen (mirrors_lift hself.exprType) fun type =>
        .andThen (mirrors_onTable (mirrors_insertString raw codes id type)) fun _ => .pure hself
    | breakStmt =>
      exact .when (by rw [loopAround?_renamed habove]) (fun _ => mirrors_error hself habove _ _) fun _ => .pure hself
    | continueStmt =>
      exact .when (by rw [loopAround?_renamed habove]) (fun _ => mirrors_error hself habove _ _) fun _ => .pure hself
    | cast spec layers => exact .when .rfl (fun _ => mirrors_warning hself _ _) fun _ => .pure hself
    | declarator head =>
      simp only [Kind.rename, Node.head?_renamed habove, Node.declaratorType_rename, Node.specifiers?_map]
      cases (above.head?.map Node.kind).bind Kind.specifiers? with
      | none => exact .throw _
      | some spec =>
        simp only [pure_bind]
        refine .when .rfl (fun _ => mirrors_warning hself _ _) fun _ => .andThen (mirrors_lift rfl) fun type => ?_
        exact echoes_entering hcs hself hcover.1 type true fun v ds ds' hds =>
          (hself.withKind (.declarator { head with symbol := v })).withChildren hds
    | function head =>
      simp only [Kind.rename]
      have henter := echoes_function hcs above above' hself hcover.1
      exact .ite .rfl (fun _ => .ite .rfl (fun _ => .andThen (mirrors_warning hself _ _) fun _ => henter) fun _ =>
        .andThen (mirrors_warning hself _ _) fun _ => henter) fun _ => henter
    | parameter head =>
      refine .andThen (mirrors_checkParameter hself habove head) fun wanted => .ite .rfl (fun _ => .pure hself) fun _ => ?_
      simp only [Node.any_renamed habove Kind.isDeclaration_rename, decay_renamed]
      refine .ite .rfl (fun _ => ?_) fun _ => ?_
      · exact .children hself hcs
      · have hdecayed := hself.withKind (.parameter (decay head))
        exact echoes_entering hcs hdecayed (decay_name head ▸ hcover.1) _ false fun v ds ds' hds => hdecayed.withChildren hds
    | statements =>
      simp only [Kind.rename, opensScope_renamed habove]
      exact .scoped _ _ .rfl false none hclose hself hcs
    | forLoop a b c =>
      exact .scoped True True .rfl false none hclose hself hcs
    | _ => exact .children hself hcs

theorem echoes_visitAll (ns : List Node) {ns' above above' : List Node} (hns : RenamedAll r.map ns ns')
    (hcover : Node.EachAll r.Covers ns) (habove : RenamedAll r.map above above') :
    Echoes r PassState.ErrorFree (RenamedAll r.map) (visitAll above ns) (visitAll above' ns') := by
  match ns, hns with
  | [], .nil =>
    rw [visitAll, visitAll]
    exact .pure .nil
  | n :: ns, .cons hn hns =>
    rw [visitAll, visitAll]
    refine .bind (fun _ => .errorFree (.bind (onward_visitAll above ns) fun _ => .pure _)) (echoes_visit n hn hcover.1 habove)
      fun m m' hm => ?_
    exact .bind (fun _ => .pure _) (echoes_visitAll ns hns hcover.2 habove) fun ms ms' hms => .pure (.cons hm hms)

end

end Fill

/-! ## The second pass -/

namespace SymbolTable

/-- No function has the stage of a declaration. -/
def Plain (t : SymbolTable) : Prop := ∀ v f, t.symbol v = .function f → f.seen = none

/-- The functions of the first table are in the second one, as they are. -/
def KeepsFunctions (t t' : SymbolTable) : Prop := ∀ v f, t.symbol v = .function f → t'.symbol v = .function f

instance : IsPreorder SymbolTable KeepsFunctions where
  refl _ _ _ := id
  trans _ _ _ h h' v f hf := h' v f (h v f hf)

@[grind ←] theorem keeps_currentScope : Moves KeepsFunctions currentScope := by
  grind [currentScope]

theorem keeps_replayScope (name : Option String) : Moves KeepsFunctions (replayScope name) := by
  refine .bind keeps_currentScope fun s t => ?_
  rw [outcome_bind, outcome_get]
  dsimp only
  split
  · exact fun _ _ => id
  · intro v f hf
    rw [outcome_set]
    dsimp only
    generalize hu : forgetSeen _ _ = u
    change u.symbol v = _
    rw [← hu, symbol_forgetSeen, symbol_modifyScope, symbol_modifyScope, hf]
    split <;> rfl

@[grind ←] theorem keeps_openScope (isFunction : Bool) (name : Option String) : Moves KeepsFunctions (openScope isFunction name) := by
  have hmake : Moves KeepsFunctions (makeScope isFunction name) := .bind keeps_currentScope fun _ => .modify fun _ _ _ => id
  have hopen : Moves KeepsFunctions (do
      let t ← get
      if t.replaying then replayScope name else makeScope isFunction name) := .bind .get fun t => by
    split
    · exact keeps_replayScope name
    · exact hmake
  refine .bind (.modify fun _ _ _ => id) fun _ => ?_
  dsimp only
  split
  · exact .bind (.modify fun _ _ _ => id) fun _ => hopen
  · exact hopen

@[grind ←] theorem keeps_closeScope : Moves KeepsFunctions closeScope :=
  .bind (.modify fun _ _ _ => id) fun _ => .bind keeps_currentScope fun _ => .modify fun _ _ _ => id

@[grind ←] theorem keeps_verdict (x : Symbol) : Moves KeepsFunctions (verdict x) := by
  refine .bind keeps_currentScope fun s => .bind .get fun t => ?_
  split <;> exact fun _ _ _ => id

theorem keeps_addSymbol (x : Symbol) : Moves KeepsFunctions (addSymbol x) := by
  intro t v f hf
  have houtcome : outcome (addSymbol x) t = (.ok t.symbols.size, { t with symbols := t.symbols.push x }) := rfl
  have hne : v ≠ t.symbols.size := fun heq => by
    simp [SymbolTable.symbol, heq] at hf
    cases hf
  rw [houtcome, symbol_push, if_neg hne, hf]

@[grind ←] theorem keeps_insertFunction (f : FunctionSymbol) : Moves KeepsFunctions (insertFunction f) :=
  .bind .get fun _ => .bind keeps_currentScope fun _ => .bind (keeps_addSymbol _) fun _ =>
    .bind (.modify fun _ _ _ => id) fun _ => .pure _

/-- A function with a stage of its own would be left. -/
theorem Plain.of_setSeen {t : SymbolTable} {v stage : Nat} (h : (t.modifySymbol v (Symbol.setSeen stage)).Plain) :
    t.Plain ∧ (t.symbol v).isObject = true := by
  have hnot : ∀ f, t.symbol v ≠ .function f := fun f hf => by
    have hv : v < t.symbols.size := by
      by_contra hle
      simp [SymbolTable.symbol, Nat.le_of_not_lt hle] at hf
      cases hf
    have hseen := h v { f with seen := some stage } (by rw [symbol_modifySymbol, hf]; simp [hv, Symbol.setSeen])
    cases hseen
  refine ⟨fun w f hf => h w f ?_, ?_⟩
  · have hne : w ≠ v := fun heq => hnot f (heq ▸ hf)
    simp [symbol_modifySymbol, hne, hf]
  · cases hv : t.symbol v with
    | object o => rfl
    | function f => exact (hnot f hv).elim

end SymbolTable

namespace Resolve

/-- No error has been found, and no declaration has been taken for one of a function. -/
def Resolves (s : PassState) : Prop := s.ErrorFree ∧ s.table.Plain

@[grind ←] theorem resolves_of_checked {α : Type} {m : PassM α} (h : Moves Checked m) : Moves (Back Resolves) m :=
  fun s hafter => ⟨h.onward.errorFree s hafter.1, (h s).table ▸ hafter.2⟩

@[grind ←] theorem resolves_onTable {α : Type} {op : TableM α} (h : Moves SymbolTable.KeepsFunctions op) :
    Moves (Back Resolves) (Pass.onTable op) := by
  refine fun s hafter => ⟨(onward_onTable op).errorFree s hafter.1, fun v f hf => hafter.2 v f ?_⟩
  rw [outcome_onTable]
  exact h s.table v f hf

@[grind ←] theorem resolves_setSeen (v stage : Nat) : Moves (Back Resolves) (setSeen v stage) := fun s hafter =>
  ⟨(onward_setSeen v stage).errorFree s hafter.1, (SymbolTable.Plain.of_setSeen hafter.2).1⟩

@[grind ←] theorem resolves_includeLibrary : Moves (Back Resolves) includeLibrary := by
  grind [includeLibrary]

@[grind ←] theorem resolves_entered (name : Option String) : Moves (Back Resolves) (entered name) := by
  grind [entered]

@[grind ←] theorem resolves_resolveName (name : String) : Moves (Back Resolves) (resolveName n above name) := by
  grind [resolveName]

@[grind ←] theorem resolves_resolveCall (name : Option String) : Moves (Back Resolves) (resolveCall n above name) := by
  grind [resolveCall]

mutual

theorem resolves_visit (above : List Node) (n : Node) : Moves (Back Resolves) (visit above n) := by
  obtain ⟨id, kind, origin, children⟩ := n
  have ih := fun above => resolves_visitAll above children
  unfold visit
  cases kind <;> grind

theorem resolves_visitAll (above : List Node) (ns : List Node) : Moves (Back Resolves) (visitAll above ns) := by
  cases ns with
  | nil => exact .pure _
  | cons c cs => exact .bind (resolves_visit above c) fun _ => .bind (resolves_visitAll above cs) fun _ => .pure _

end

/-! ### Names -/

theorem mirrors_setSeen (v stage : Nat) : Repeats r Eq (setSeen v stage) (setSeen v stage) :=
  mirrors_modifyTable fun _ _ ht => ht.setSeen v stage

/-- A declaration is read, of a variable. -/
theorem echoes_entered {α β : Type} {A : α → β → Prop} (name : Option String) (stage : Nat) {k : Nat → Unit → PassM α}
    {k' : Nat → Unit → PassM β} (hk : ∀ v u, Moves (Back Resolves) (k v u)) (h : ∀ v u, Echoes r Resolves A (k v u) (k' v u)) :
    Echoes r Resolves A (entered name >>= fun v => setSeen v stage >>= k v)
      (entered (name.map r.map) >>= fun v => setSeen v stage >>= k' v) := by
  intro s s' a t hs hr hend
  obtain ⟨v, s1, hentered, hrest⟩ := runs_bind.1 hr
  simp only [entered, runs_get_bind] at hentered
  cases hlookup : s.table.lookup name 0 with
  | none => simp [hlookup] at hentered
  | some w =>
    rw [hlookup] at hentered
    obtain ⟨rfl, rfl⟩ := runs_pure.1 hentered
    obtain ⟨u, s2, hset, hlast⟩ := runs_bind.1 hrest
    have hresolves : Resolves s2 := (hk v u).runs hlast hend
    obtain rfl := runs_modify.1 hset
    have hobject := (SymbolTable.Plain.of_setSeen hresolves.2).2
    have hlookup' := hs.table.lookup hlookup
    have hname : r.nameOf (s1.table.symbol v) name = name.map r.map := by
      cases hsymbol : s1.table.symbol v with
      | object o => rfl
      | function f => rw [hsymbol] at hobject; cases hobject
    rw [hname] at hlookup'
    obtain ⟨b, t', hr', hab, ht⟩ := h v u _ _ a t (hs.withTable (hs.table.setSeen v stage)) hlast hend
    refine ⟨b, t', ?_, hab, ht⟩
    refine runs_bind.2 ⟨v, s', ?_, runs_bind.2 ⟨u, _, runs_modify.2 rfl, hr'⟩⟩
    simp only [entered, runs_get_bind, hlookup', runs_pure, and_self]

theorem echoes_resolveName (hn : Renamed r.map n n') (name : String) :
    Echoes r Resolves (Renamed r.map) (resolveName n above name) (resolveName n' above' (r.map name)) := by
  intro s s' m t hs hr hend
  have hplain := ((resolves_resolveName name).runs hr hend).2
  simp only [resolveName, runs_get_bind] at hr ⊢
  cases hlookup : s.table.lookup (some name) 1 with
  | none =>
    rw [hlookup] at hr
    exact (not_errorFree_of_error (fun _ => .pure _) hr hend.1).elim
  | some v =>
    rw [hlookup] at hr
    obtain ⟨stage, hstage, hr⟩ := runs_pass_lift_bind.1 hr
    have hlookup' := hs.table.lookup hlookup
    have halike := hs.table.symbol v
    have hname : r.nameOf (s.table.symbol v) (some name) = some (r.map name) := by
      cases hsymbol : s.table.symbol v with
      | object o => rfl
      | function f => simp [hsymbol, Symbol.seen, hplain v f hsymbol] at hstage
    rw [hname] at hlookup'
    rw [hlookup']
    obtain ⟨m', t', hr', hm, ht⟩ := (Mirrors.when .rfl (fun _ => mirrors_warning hn _ _) fun _ => .pure
      (hn.withKind (.name name (some (s.table.symbol v).type) (some v)))) s s' m t hs hr
    refine ⟨m', t', runs_pass_lift_bind.2 ⟨stage, halike.seen.trans hstage, ?_⟩, hm, ht⟩
    rw [halike.type]
    exact hr'

theorem echoes_resolveCall (name : Option String) :
    Echoes r Resolves Eq (resolveCall n above name) (resolveCall n' above' name) := by
  intro s s' callee t hs hr hend
  simp only [resolveCall, runs_get_bind] at hr ⊢
  cases hlookup : s.table.lookup name 1 with
  | none =>
    rw [hlookup] at hr
    exact (not_errorFree_of_error (fun _ => .pure _) hr hend.1).elim
  | some v =>
    rw [hlookup] at hr
    dsimp only at hr
    have hlookup' := hs.table.lookup hlookup
    have halike := hs.table.symbol v
    cases hsymbol : s.table.symbol v with
    | object o =>
      rw [hsymbol] at hr
      exact (not_errorFree_of_error (fun _ => .pure _) hr hend.1).elim
    | function f =>
      rw [hsymbol] at hr hlookup' halike
      rw [show s'.table.lookup name 1 = some v from hlookup']
      dsimp only at hr ⊢
      generalize s'.table.symbol v = x at halike ⊢
      cases halike with
      | function f place =>
        dsimp only at hr ⊢
        cases hform : f.form.isDefinition with
        | true =>
          simp only [hform, if_true] at hr ⊢
          obtain ⟨rfl, rfl⟩ := runs_pure.1 hr
          exact ⟨_, s', runs_pure.2 ⟨rfl, rfl⟩, rfl, hs⟩
        | false =>
          simp only [hform, Bool.false_eq_true, if_false] at hr
          exact (not_errorFree_of_error (fun _ => .pure _) hr hend.1).elim

theorem mirrors_includeLibrary : Repeats r Eq includeLibrary includeLibrary := by
  have hprintf := r.library "printf" (by simp)
  have hscanf := r.library "scanf" (by simp)
  refine .bind (mirrors_onTable (mirrors_verdict_library rfl hprintf)) fun first first' hfirst =>
    .bind (mirrors_onTable (mirrors_verdict_library rfl hscanf)) fun second second' hsecond => ?_
  dsimp only
  rw [hfirst, hsecond]
  have hinsert : Repeats r Eq (do
      if includeLibrary.inserts second then let _ ← Pass.onTable (SymbolTable.insertFunction (libraryFunction "scanf"))) (do
      if includeLibrary.inserts second then let _ ← Pass.onTable (SymbolTable.insertFunction (libraryFunction "scanf"))) :=
    .ite .rfl (fun _ => .andThen (mirrors_onTable (mirrors_insert_library hscanf)) fun _ => .pure rfl) fun _ => .pure rfl
  exact .ite .rfl (fun _ => .andThen (mirrors_onTable (mirrors_insert_library hprintf)) fun _ => hinsert) fun _ => hinsert

/-! ### Trees -/

mutual

theorem echoes_visit (n : Node) {n' : Node} {above above' : List Node} (hn : Renamed r.map n n')
    (habove : RenamedAll r.map above above') :
    Echoes r Resolves (Renamed r.map) (visit above n) (visit above' n') := by
  match n, hn with
  | .mk id kind o cs, @Node.Renamed.mk _ _ _ _ o' _ cs' ho hchildren =>
    have hself : Renamed r.map (.mk id kind o cs) (.mk id (kind.rename r.map) o' cs') := .mk ho hchildren
    have hcs := echoes_visitAll cs hchildren (.cons hself habove)
    have hclose := resolves_onTable SymbolTable.keeps_closeScope
    have hmarked : ∀ {m m' : PassM Node}, Echoes r Resolves (Renamed r.map) m m' → Echoes r Resolves (Renamed r.map) (do
        if ← Pass.isMarked (.mk id kind o cs) then return .mk id kind o cs
        m) (do
        if ← Pass.isMarked (.mk id (kind.rename r.map) o' cs') then return .mk id (kind.rename r.map) o' cs'
        m') := fun h => .andThen (mirrors_isMarked hself) fun _ => .ite .rfl (fun _ => .pure hself) fun _ => h
    unfold visit
    cases kind with
    | includeFile std name => exact .when .rfl (fun _ => mirrors_includeLibrary) fun _ => .pure hself
    | parameter head =>
      simp only [Kind.rename, Node.any_renamed habove Kind.isDeclaration_rename, Option.isSome_map]
      exact hmarked (.ite .rfl (fun _ => echoes_entered head.name 2 (fun _ _ => .pure _) fun _ _ => .pure hself) fun _ =>
        .pure hself)
    | declarator head =>
      have hbelow := resolves_visitAll (.mk id (.declarator head) o cs :: above) cs
      refine hmarked (echoes_entered head.name 1 (fun v _ => ?_) fun v _ => ?_)
      · exact .bind hbelow fun _ => .bind (resolves_setSeen v 2) fun _ => .pure _
      · exact .bind (fun _ => .bind (resolves_setSeen v 2) fun _ => .pure _) hcs fun ds ds' hds =>
          .andThen (mirrors_setSeen v 2) fun _ => .pure (hself.withChildren hds)
    | name text type symbol => exact hmarked (echoes_resolveName hself text)
    | function head =>
      have hopened := Echoes.scoped True True .rfl true head.name hclose hself hcs
      exact hmarked (.ite .rfl (fun _ => hopened) fun _ => .children hself hcs)
    | call name callee pieces =>
      have hbelow := resolves_visitAll (.mk id (.call name callee pieces) o cs :: above) cs
      refine hmarked (.bind (fun found => ?_) (echoes_resolveCall name) fun found found' hfound => ?_)
      · cases found with
        | none => exact .pure _
        | some callee => exact .bind hbelow fun _ => .pure _
      · subst hfound
        cases found with
        | none => exact .pure hself
        | some callee => exact .bind (fun _ => .pure _) hcs fun ds ds' hds => .pure ((hself.withKind _).withChildren hds)
    | statements =>
      refine hmarked ?_
      simp only [Fill.opensScope_renamed habove]
      exact .scoped _ _ .rfl false none hclose hself hcs
    | forLoop a b c => exact hmarked (.scoped True True .rfl false none hclose hself hcs)
    | _ => exact hmarked (.children hself hcs)

theorem echoes_visitAll (ns : List Node) {ns' above above' : List Node} (hns : RenamedAll r.map ns ns')
    (habove : RenamedAll r.map above above') :
    Echoes r Resolves (RenamedAll r.map) (visitAll above ns) (visitAll above' ns') := by
  match ns, hns with
  | [], .nil =>
    rw [visitAll, visitAll]
    exact .pure .nil
  | n :: ns, .cons hn hns =>
    rw [visitAll, visitAll]
    refine .bind (fun _ => .bind (resolves_visitAll above ns) fun _ => .pure _) (echoes_visit n hn habove) fun m m' hm => ?_
    exact .bind (fun _ => .pure _) (echoes_visitAll ns hns habove) fun ms ms' hms => .pure (.cons hm hms)

end

theorem definesMain_renamed (hn : Renamed r.map n n') (marks : List Nat) : definesMain marks n' = definesMain marks n := by
  have hchildren := hn.children
  unfold definesMain
  generalize n.children = cs at hchildren ⊢
  generalize n'.children = cs' at hchildren ⊢
  induction hchildren with
  | nil => rfl
  | @cons c c' cs cs' hc _ ih =>
    rw [List.any_cons, List.any_cons, ih, hc.kind_eq, hc.id_eq]
    cases c.kind <;> rfl

theorem echoes_run (hn : Renamed r.map n n') : Echoes r Resolves (Renamed r.map) (run n) (run n') := by
  have hreset : Moves (Back Resolves) (modify fun s => { s with table := s.table.reset } : PassM Unit) := .modify fun _ hafter => hafter
  refine .andThen (mirrors_modifyTable fun _ _ ht => ht.startReplay) fun _ => .after .get fun s s' hs => ?_
  rw [hs.marks, definesMain_renamed hn]
  refine .bind (fun m => ?_) (echoes_visit n hn .nil) fun m m' hm => ?_
  · refine .bind hreset fun _ => ?_
    dsimp only
    split
    · exact .bind (resolves_of_checked checked_error) fun _ => .pure _
    · exact .pure _
  · exact .andThen (mirrors_modifyTable fun _ _ ht => ht.reset) fun _ =>
      .when .rfl (fun _ => mirrors_error hm .nil _ _) fun _ => .pure hm

end Resolve

end MiniC
