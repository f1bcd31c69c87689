import MiniC.Proofs.Renaming.Passes

/-!
# Types under other names

The check of types does the same on a tree with other names of variables: every type is the same, and so is every decision.
The messages may name other variables, but there are as many, of the same sort.
-/

namespace MiniC

open Pass

variable {arguments arguments' : List Node} {list list' : Node}

open Node (Renamed RenamedAll)

variable {r : Renaming} {n n' : Node} {above above' : List Node}

/-- An error, after which something is given back. -/
theorem mirrors_stop {α : Type} (hn : Renamed r.map n n') (habove : RenamedAll r.map above above')
    (message message' : String) (a : α) : Repeats r Eq (do
      error n above message
      return a) (do
      error n' above' message'
      return a) :=
  .andThen (mirrors_error hn habove message message') fun _ => .pure rfl

theorem mirrors_hint {c : Prop} [Decidable c] (hn : Renamed r.map n n') (message message' : String) :
    Repeats r Eq (if c then warning n message else pure ()) (if c then warning n' message' else pure ()) :=
  .ite .rfl (fun _ => mirrors_warning hn message message') fun _ => .pure rfl

theorem mirrors_fail {c : Prop} [Decidable c] (hn : Renamed r.map n n') (habove : RenamedAll r.map above above')
    (message message' : String) : Repeats r Eq (if c then error n above message else pure ())
      (if c then error n' above' message' else pure ()) :=
  .ite .rfl (fun _ => mirrors_error hn habove message message') fun _ => .pure rfl

/-! ## Formats -/

namespace Format

section

variable (hn : Renamed r.map n n') (habove : RenamedAll r.map above above')

include hn habove

theorem mirrors_argumentOk (reading : Bool) (s : Specifier) (type : CType) (number : Nat) {argument argument' : Node}
    (hargument : Renamed r.map argument argument') : Repeats r Eq
      (argumentOk n above reading s type number argument) (argumentOk n' above' reading s type number argument') := by
  unfold argumentOk
  refine .same (by rw [hargument.exprType]) fun given _ => .same rfl fun agrees _ => ?_
  refine .ite .rfl (fun _ => mirrors_stop hn habove _ _ false) fun _ => ?_
  exact .same rfl fun keeps _ => .when .rfl (fun _ => mirrors_warning hn _ _) fun _ => .pure rfl

theorem mirrors_checkSpecifiers (reading : Bool) (format : List Char)
    (harguments : RenamedAll r.map arguments arguments') (index : Nat) (cut : Cut)
    (specifiers : List Specifier) :
    Repeats r Eq (checkSpecifiers n above reading format arguments.toArray index cut specifiers)
      (checkSpecifiers n' above' reading format arguments'.toArray index cut specifiers) := by
  induction specifiers generalizing index cut with
  | nil => exact .pure rfl
  | cons s rest ih =>
    rw [checkSpecifiers, checkSpecifiers]
    refine .same rfl fun width _ => .ite .rfl (fun _ => ih _ _) fun _ => ?_
    cases typeOfCode? s.code with
    | none => exact .andThen (mirrors_warning hn _ _) fun _ => ih _ _
    | some type =>
      have hrel := rel_getElem? harguments (index + 1)
      simp only [List.getElem?_toArray]
      generalize arguments[index + 1]? = a at hrel ⊢
      generalize arguments'[index + 1]? = a' at hrel ⊢
      cases hrel with
      | none => exact .andThen (mirrors_warning hn _ _) fun _ => ih _ _
      | some hargument =>
        exact .andThen (mirrors_argumentOk hn habove reading s type _ hargument) fun _ => .ite .rfl (fun _ => ih _ _) fun _ => ih _ _

theorem mirrors_check (name : String) (harguments : RenamedAll r.map arguments arguments') :
    Repeats r Eq
      (check n above name arguments) (check n' above' name arguments') := by
  cases harguments with
  | nil => exact .throw _
  | @cons first first' rest rest' hfirst hrest =>
    have hlength : (first' :: rest').length = (first :: rest).length := by simp [hrest.length_eq]
    simp only [check, hlength, hfirst.kind_eq]
    cases first.kind with
    | string raw codes =>
      exact .andThen (mirrors_checkSpecifiers hn habove _ _ (.cons hfirst hrest) 0 {} _) fun cut =>
        .when .rfl (fun _ => mirrors_warning hn _ _) fun _ => .pure rfl
    | _ => exact mirrors_stop hn habove _ _ none

end

end Format

/-! ## Initialisers -/

namespace Check

theorem bracketsOf_renamed {brackets brackets' : List Node} (h : RenamedAll r.map brackets brackets') {count : Nat}
    {pair : Node} (hp : bracketsOf brackets count = .ok pair) :
    ∃ pair', bracketsOf brackets' count = .ok pair' ∧ Renamed r.map pair pair' := by
  unfold bracketsOf entryAt entryAt? at hp ⊢
  rw [List.size_toArray] at hp ⊢
  rw [← h.length_eq]
  cases hplace : placeAt brackets.length (-Int.ofNat count) with
  | none => rw [hplace] at hp; cases hp
  | some k =>
    have hrel := rel_getElem? h k
    simp only [hplace, Option.bind_eq_bind, Option.bind_some, List.getElem?_toArray] at hp ⊢
    generalize brackets[k]? = a at hrel hp
    generalize brackets'[k]? = a' at hrel ⊢
    cases hrel with
    | none => cases hp
    | some hab => cases hp; exact ⟨_, rfl, hab⟩

section

variable (hn : Renamed r.map n n') (habove : RenamedAll r.map above above')

include hn habove

theorem mirrors_dimensionsOk (name name' : String) {brackets brackets' : List Node}
    (hbrackets : RenamedAll r.map brackets brackets') (count : Nat) (layers : List Layer) :
    Repeats r Eq (dimensionsOk n above name brackets count layers)
      (dimensionsOk n' above' name' brackets' count layers) := by
  induction layers generalizing count with
  | nil => exact .pure rfl
  | cons layer rest ih =>
    rw [dimensionsOk, dimensionsOk]
    refine .bind (.mk fun pair hp => bracketsOf_renamed hbrackets hp) fun pair pair' hpair => ?_
    rw [← hbrackets.length_eq]
    have hchildren := hpair.children
    generalize pair.children = cs at hchildren ⊢
    generalize pair'.children = cs' at hchildren ⊢
    cases hchildren
    case' cons hc _ =>
      refine .ite (by rw [hc.kind_eq, Kind.isInteger_rename]) (fun _ => ?_) fun _ => ?_
      · exact mirrors_stop hc (.cons hpair (.cons hn habove)) _ _ false
    all_goals
      refine .ite .rfl (fun _ => .ite .rfl (fun _ => mirrors_stop hn habove _ _ false) fun _ => ?_) fun _ => ih _
      cases rest with
      | nil => exact .throw_bind _
      | cons next more => exact .ite .rfl (fun _ => mirrors_stop hn habove _ _ false) fun _ => ih _

theorem mirrors_initializerOk (target : CType) {element element' : Node} (helement : Renamed r.map element element')
    {inside inside' : List Node} (hinside : RenamedAll r.map inside inside') : Repeats r Eq
      (initializerOk n above target element inside) (initializerOk n' above' target element' inside') := by
  unfold initializerOk
  refine .same (by rw [helement.exprType]) fun given _ => .same rfl fun isVoid _ => ?_
  refine .ite .rfl (fun _ => mirrors_stop hn habove _ _ ()) fun _ => ?_
  refine .ite .rfl (fun _ => .andThen (mirrors_warning helement _ _) fun _ => .pure rfl) fun _ => .same rfl fun agrees _ => ?_
  refine .ite .rfl (fun _ => mirrors_stop helement hinside _ _ ()) fun _ => .same rfl fun keeps _ => ?_
  exact mirrors_hint helement _ _

end

/-- What is declared, under other names. -/
structure Target.Alike (r : Renaming) (t t' : Target) : Prop where
  decl : Renamed r.map t.decl t'.decl
  above : RenamedAll r.map t.above t'.above
  type : t'.type = t.type
  list : Renamed r.map t.list t'.list

section

variable {t t' : Target} (ht : t.Alike r t')

include ht

theorem Target.Alike.isFilledByString : t'.isFilledByString = t.isFilledByString := by
  have hchildren := ht.list.children
  unfold Target.isFilledByString
  generalize t.list.children = cs at hchildren ⊢
  generalize t'.list.children = cs' at hchildren ⊢
  cases hchildren with
  | nil => rfl
  | cons hc _ => simp only [hc.kind_eq, Kind.isString_rename, ht.type]

theorem Target.Alike.elementType (level : Nat) (hn : Renamed r.map n n') : t'.elementType level n' = t.elementType level n := by
  have hlist : (t'.list.kind == .initializerList true) = (t.list.kind == .initializerList true) := by
    rw [ht.list.kind_eq, Kind.rename_beq _ rfl]
  simp only [Target.elementType, hn.kind_eq, hlist, Kind.isString_rename, ht.type]

theorem mirrors_checkElements (level : Nat) (habove : RenamedAll r.map above above') {elements elements' : List Node}
    (helements : RenamedAll r.map elements elements') : Repeats r Eq
      (checkElements t level above elements) (checkElements t' level above' elements') := by
  induction helements with
  | nil => exact .pure rfl
  | cons helement _ ih =>
    rw [checkElements, checkElements]
    refine .same ht.isFilledByString fun filled _ => .when .rfl (fun _ => ?_) fun _ => ih
    rw [ht.elementType level helement]
    exact mirrors_initializerOk ht.decl ht.above _ helement habove

omit ht in
theorem mirrors_wrap (hlist : Renamed r.map list list') (hn : Renamed r.map n n') :
    Repeats r (Renamed r.map) (wrap list n) (wrap list' n') := by
  refine .ite (by rw [hn.kind_eq, Kind.isInitializerList_rename]) (fun _ => .pure hn) fun _ => .bind .get fun s s' hs => ?_
  rw [hs.nextId]
  refine .andThen (.set ⟨hs.table, hs.marks, hs.operands, hs.errors, rfl⟩) fun _ => ?_
  exact .pure (.mk hlist.origin (.cons hn .nil))

omit ht in
theorem mirrors_checkFirst {check check' : Node → PassM Node}
    (hcheck : ∀ n n', Renamed r.map n n' → Repeats r (Renamed r.map) (check n) (check' n')) (count : Nat)
    {ns ns' : List Node} (hns : RenamedAll r.map ns ns') : Repeats r
      (RenamedAll r.map) (checkFirst check count ns) (checkFirst check' count ns') := by
  induction hns generalizing count with
  | nil => cases count <;> exact .pure .nil
  | cons hn hns ih =>
    cases count with
    | zero => exact .pure (.cons hn hns)
    | succ count =>
      exact .bind (hcheck _ _ hn) fun m m' hm => .bind (ih count) fun ms ms' hms => .pure (.cons hm hms)

theorem mirrors_checkList (below level : Nat) (habove : RenamedAll r.map above above')
    (hlist : Renamed r.map list list') :
    Repeats r (Renamed r.map) (checkList t below level above list)
      (checkList t' below level above' list') := by
  induction below generalizing level above above' list list' with
  | zero =>
    rw [checkList, checkList]
    refine .same (by rw [ht.type]) fun extent _ => .when (by rw [hlist.children.length_eq]) (fun _ => mirrors_warning hlist _ _) fun _ => ?_
    exact .andThen (mirrors_checkElements ht level (.cons hlist habove) hlist.children) fun _ => .pure hlist
  | succ below ih =>
    rw [checkList, checkList]
    refine .same (by rw [ht.type]) fun extent _ => .when (by rw [hlist.children.length_eq]) (fun _ => mirrors_warning hlist _ _) fun _ => ?_
    rw [hlist.children.length_eq]
    refine .bind (mirrors_checkFirst (fun n n' hn => ?_) _ hlist.children) fun ms ms' hms => .pure (hlist.withChildren hms)
    exact .bind (mirrors_wrap hlist hn) fun inner inner' hinner => ih (level + 1) (.cons hlist habove) hinner

end

/-! ## Nodes -/

theorem typeAt_renamed (hn : Renamed r.map n n') (i : Nat) : typeAt n' i = typeAt n i := by
  have hrel := rel_getElem? hn.children i
  unfold typeAt Node.child
  generalize n.children[i]? = a at hrel ⊢
  generalize n'.children[i]? = a' at hrel ⊢
  cases hrel with
  | none => rfl
  | some hc => exact hc.exprType

theorem valueOf_renamed (hn : Renamed r.map n n') (i : Nat) : valueOf n' i = valueOf n i :=
  congrArg (· >>= CType.asValue) (typeAt_renamed hn i)

section

variable (hn : Renamed r.map n n') (habove : RenamedAll r.map above above')

include hn habove

theorem mirrors_hasVoid (types : List CType) :
    Repeats r Eq (hasVoid n above types) (hasVoid n' above' types) := by
  induction types with
  | nil => exact .pure rfl
  | cons t types ih => exact .same rfl fun isVoid _ => .ite .rfl (fun _ => mirrors_stop hn habove _ _ true) fun _ => ih

theorem mirrors_checkReturn : Repeats r Eq (checkReturn n above) (checkReturn n' above') := by
  have hfunction : Option.Rel (Renamed r.map) (above.find? (·.kind.isDefinition)) (above'.find? (·.kind.isDefinition)) :=
    rel_find? habove fun _ _ hf => by rw [hf.kind_eq, Kind.isDefinition_rename]
  have hchildren := hn.children
  unfold checkReturn
  generalize above.find? (·.kind.isDefinition) = a at hfunction ⊢
  generalize above'.find? (·.kind.isDefinition) = a' at hfunction ⊢
  generalize n.children = cs at hchildren ⊢
  generalize n'.children = cs' at hchildren ⊢
  cases hfunction with
  | none => exact .throw_bind _
  | some hf =>
    refine .same hf.exprType fun function _ => ?_
    cases hchildren with
    | nil => exact mirrors_hint hn _ _
    | cons hvalue _ =>
      refine .same (by rw [hvalue.exprType]) fun given _ => .same rfl fun agrees _ => .ite .rfl (fun _ => ?_) fun _ => .pure rfl
      exact .same rfl fun isVoid _ => .ite .rfl (fun _ => mirrors_warning hn _ _) fun _ => mirrors_error hn habove _ _

theorem mirrors_checkArgument (name : String) (index : Nat) (param : CType) {argument argument' : Node}
    (hargument : Renamed r.map argument argument') : Repeats r Eq
      (checkArgument n above name index param argument) (checkArgument n' above' name index param argument') := by
  unfold checkArgument
  refine .same rfl fun expected _ => .same (by rw [hargument.exprType]) fun given _ => .same rfl fun isVoid _ => ?_
  refine .ite .rfl (fun _ => mirrors_error hn habove _ _) fun _ => .ite .rfl (fun _ => mirrors_warning hn _ _) fun _ => ?_
  refine .same rfl fun agrees _ => .ite .rfl (fun _ => .andThen (mirrors_pointAt hn _) fun _ => mirrors_error hn habove _ _) fun _ => ?_
  exact .same rfl fun keeps _ => mirrors_hint hn _ _

theorem mirrors_checkArguments (name : String) (index : Nat) (params : List CType)
    (harguments : RenamedAll r.map arguments arguments') : Repeats r Eq
      (checkArguments n above name index params arguments) (checkArguments n' above' name index params arguments') := by
  induction params generalizing index arguments arguments' with
  | nil => exact .pure rfl
  | cons param params ih =>
    cases harguments with
    | nil => exact .pure rfl
    | cons hargument harguments =>
      exact .andThen (mirrors_isMarked hargument) fun marked =>
        .when .rfl (fun _ => mirrors_checkArgument hn habove name index param hargument) fun _ => ih (index + 1) harguments

theorem mirrors_checkCall (name : Option String) (callee : Option Callee) : Repeats r Eq
      (checkCall n above name callee) (checkCall n' above' name callee) := by
  have harguments := hn.arguments?
  unfold checkCall
  generalize n.arguments? = a at harguments ⊢
  generalize n'.arguments? = a' at harguments ⊢
  cases callee with
  | none => exact .throw_bind _
  | some f =>
    refine .ite .rfl (fun _ => ?_) fun _ => ?_
    · cases harguments with
      | none => exact .throw _
      | some hlist => exact Format.mirrors_check hn habove _ hlist.children
    · cases f.params with
      | none => cases harguments <;> exact .throw _
      | some params =>
        cases harguments with
        | none => exact .throw _
        | some hlist =>
          refine .ite (by rw [hlist.children.length_eq]) (fun _ => mirrors_stop hn habove _ _ none) fun _ => ?_
          exact .andThen (mirrors_checkArguments hn habove _ 0 params hlist.children) fun _ => .pure rfl

theorem mirrors_arrayInitializer (name name' : String) (type : CType) (hlist : Renamed r.map list list') :
    Repeats r (Option.Rel (Renamed r.map)) (do
      if list.kind != .initializerList true then
        let first ← lift (list.child 0)
        let fits ← if first.kind.isString then lift (first.exprType >>= type.agrees) else pure false
        if !fits then
          error list (n :: above) "invalid initializer"
          return none
      let checked ← checkList ⟨n, above, name, type, list⟩ ((type.dimensions?.getD []).length - 1) 1 (n :: above) list
      return some checked) (do
      if list'.kind != .initializerList true then
        let first ← lift (list'.child 0)
        let fits ← if first.kind.isString then lift (first.exprType >>= type.agrees) else pure false
        if !fits then
          error list' (n' :: above') "invalid initializer"
          return none
      let checked ← checkList ⟨n', above', name', type, list'⟩ ((type.dimensions?.getD []).length - 1) 1 (n' :: above') list'
      return some checked) := by
  have hinside : RenamedAll r.map (n :: above) (n' :: above') := .cons hn habove
  have htarget : Target.Alike r ⟨n, above, name, type, list⟩ ⟨n', above', name', type, list'⟩ := ⟨hn, habove, rfl, hlist⟩
  have hchecked := (mirrors_checkList htarget ((type.dimensions?.getD []).length - 1) 1 hinside hlist).bind
    fun m m' hm => .pure (A := Option.Rel (Renamed r.map)) (.some hm)
  have hwritten : (list'.kind != .initializerList true) = (list.kind != .initializerList true) := by
    rw [bne, bne, hlist.kind_eq, Kind.rename_beq _ rfl]
  have hunfit : Repeats r (Option.Rel (Renamed r.map)) (do
      error list (n :: above) "invalid initializer"
      return none) (do
      error list' (n' :: above') "invalid initializer"
      return none) := .andThen (mirrors_error hlist hinside _ _) fun _ => .pure .none
  rw [hwritten]
  refine .ite .rfl (fun _ => .bind (.mk fun first hfirst => hlist.child hfirst) fun first first' hfirst => ?_) fun _ => hchecked
  refine .ite (by rw [hfirst.kind_eq, Kind.isString_rename]) (fun _ => ?_) fun _ => ?_
  · exact .same (by rw [hfirst.exprType]) fun fits _ => .ite .rfl (fun _ => hunfit) fun _ => hchecked
  · exact .andThen (.pure rfl) fun fits => .ite .rfl (fun _ => hunfit) fun _ => hchecked

/-- The initialiser of what is no array. -/
theorem mirrors_scalarInitializer (type : CType) (hlist : Renamed r.map list list') :
    Repeats r (Option.Rel (Renamed r.map)) (match list.children with
      | [] => do
        error n above "empty scalar initializer"
        return none
      | element :: rest => do
        if !rest.isEmpty then warning n "excess elements in scalar initializer"
        let target ← lift type.asValue
        initializerOk n above target element (list :: n :: above)
        return none : PassM (Option Node)) (match list'.children with
      | [] => do
        error n' above' "empty scalar initializer"
        return none
      | element :: rest => do
        if !rest.isEmpty then warning n' "excess elements in scalar initializer"
        let target ← lift type.asValue
        initializerOk n' above' target element (list' :: n' :: above')
        return none) := by
  have hchildren := hlist.children
  generalize list.children = cs at hchildren ⊢
  generalize list'.children = cs' at hchildren ⊢
  cases hchildren with
  | nil => exact .andThen (mirrors_error hn habove _ _) fun _ => .pure .none
  | cons helement hrest =>
    refine .when (by cases hrest <;> rfl) (fun _ => mirrors_warning hn _ _) fun _ => .same rfl fun target _ => ?_
    exact .andThen (mirrors_initializerOk hn habove target helement (.cons hlist (.cons hn habove))) fun _ => .pure .none

theorem mirrors_checkDeclarator (head : DeclaratorHead) : Repeats r (Option.Rel (Renamed r.map))
    (checkDeclarator n above head) (checkDeclarator n' above' { head with name := head.name.map r.map }) := by
  unfold checkDeclarator
  rw [Node.head?_renamed habove]
  refine .same (Node.declaratorType_rename _ head) fun type _ => .same rfl fun isVoid _ => ?_
  refine .when .rfl (fun _ => mirrors_error hn habove _ _) fun _ => ?_
  refine .ite .rfl (fun _ => .andThen (mirrors_dimensionsOk hn habove _ _ hn.arrayParts 0 head.layers) fun inOrder =>
    .ite .rfl (fun _ => .pure .none) fun _ => ?_) fun _ => ?_
  all_goals
    have hlist := hn.initializer?
    generalize n.initializer? = a at hlist ⊢
    generalize n'.initializer? = a' at hlist ⊢
    cases hlist with
    | none => exact .same rfl fun _ _ => .pure .none
    | some hlist =>
      refine .same rfl fun isArray _ => .ite .rfl (fun _ => mirrors_arrayInitializer hn habove _ _ type hlist) fun _ => ?_
      exact mirrors_scalarInitializer hn habove type hlist

theorem mirrors_checkConditional : Repeats r Eq (checkConditional n above) (checkConditional n' above') := by
  refine .same (valueOf_renamed hn 0) fun condition _ => .same (valueOf_renamed hn 1) fun first _ =>
    .same (valueOf_renamed hn 2) fun second _ => .andThen (mirrors_hasVoid hn habove _) fun isVoid => ?_
  refine .ite .rfl (fun _ => .pure rfl) fun _ => .same rfl fun isInt _ => ?_
  refine .ite .rfl (fun _ => .andThen (mirrors_pointAt hn 0) fun _ => mirrors_stop hn habove _ _ ()) fun _ => .same rfl fun same _ => ?_
  exact .ite .rfl (fun _ => .andThen (mirrors_pointAt hn 1) fun _ => mirrors_error hn habove _ _) fun _ => .pure rfl

theorem mirrors_checkArith (op : ArithOp) : Repeats r Eq (checkArith n above op) (checkArith n' above' op) := by
  refine .same (valueOf_renamed hn 0) fun left _ => .same (valueOf_renamed hn 1) fun right _ =>
    .andThen (mirrors_hasVoid hn habove _) fun isVoid => .ite .rfl (fun _ => .pure rfl) fun _ => ?_
  refine .same rfl fun leftPointer _ => .same rfl fun rightPointer _ => ?_
  have hsame : ∀ message message', Repeats r Eq (do
      let same ← lift (left.agrees right)
      if !same || (leftPointer && rightPointer) then error n above message) (do
      let same ← lift (left.agrees right)
      if !same || (leftPointer && rightPointer) then error n' above' message') := fun _ _ =>
    .same rfl fun same _ => mirrors_fail hn habove _ _
  refine .ite .rfl (fun _ => .ite .rfl (fun _ => ?_) fun _ => .ite .rfl (fun _ => ?_) fun _ => ?_) fun _ => hsame _ _
  · exact .same rfl fun shifted _ => .ite .rfl (fun _ => .pure rfl) fun _ => hsame _ _
  · exact .same rfl fun shifted _ => .ite .rfl (fun _ => .pure rfl) fun _ => hsame _ _
  · exact .andThen (.pure rfl) fun shifted => .ite .rfl (fun _ => .pure rfl) fun _ => hsame _ _

theorem mirrors_checkAssign : Repeats r Eq (checkAssign n above) (checkAssign n' above') := by
  refine .bind (.mk fun target htarget => hn.child htarget) fun target target' htarget => ?_
  refine .same (htarget.typeOf? none) fun type? _ => .same (valueOf_renamed hn 1) fun given _ => .same rfl fun type _ => ?_
  refine .ite .rfl (fun _ => mirrors_stop hn habove _ _ ()) fun _ => .andThen (mirrors_hasVoid hn habove _) fun isVoid => ?_
  refine .ite .rfl (fun _ => .pure rfl) fun _ => .same rfl fun agrees _ => .ite .rfl (fun _ => mirrors_stop hn habove _ _ ()) fun _ => ?_
  refine .same rfl fun isConst _ => .ite .rfl (fun _ => ?_) fun _ => .same rfl fun keeps _ => mirrors_fail hn habove _ _
  rw [htarget.kind_eq]
  cases target.kind <;> exact mirrors_stop hn habove _ _ ()

theorem mirrors_checkLogic (op : LogicOp) : Repeats r Eq (checkLogic n above op) (checkLogic n' above' op) := by
  refine .same (valueOf_renamed hn 0) fun left _ => .same (valueOf_renamed hn 1) fun right _ =>
    .andThen (mirrors_hasVoid hn habove _) fun isVoid => .ite .rfl (fun _ => .pure rfl) fun _ => ?_
  refine .same rfl fun same _ => .ite .rfl (fun _ => mirrors_stop hn habove _ _ ()) fun _ => ?_
  exact .same rfl fun leftInt _ => .same rfl fun rightInt _ => mirrors_fail hn habove _ _

theorem mirrors_checkCompare (op : CompareOp) :
    Repeats r Eq (checkCompare n above op) (checkCompare n' above' op) := by
  refine .same (valueOf_renamed hn 0) fun left _ => .same (valueOf_renamed hn 1) fun right _ =>
    .andThen (mirrors_hasVoid hn habove _) fun isVoid => .ite .rfl (fun _ => .pure rfl) fun _ => ?_
  exact .same rfl fun same _ => mirrors_fail hn habove _ _

theorem mirrors_checkUnary (op : UnaryOp) : Repeats r Eq (checkUnary n above op) (checkUnary n' above' op) := by
  refine .bind (.mk fun operand hoperand => hn.child hoperand) fun operand operand' hoperand => ?_
  refine .same hoperand.exprType fun type _ => .same rfl fun isVoid _ => .ite .rfl (fun _ => mirrors_stop hn habove _ _ ()) fun _ => ?_
  refine .ite .rfl (fun _ => mirrors_stop hn habove _ _ ()) fun _ => .ite .rfl (fun _ => ?_) fun _ => .pure rfl
  refine .same rfl fun isConst _ => .ite .rfl (fun _ => ?_) fun _ => .pure rfl
  rw [hoperand.kind_eq]
  cases operand.kind <;> exact mirrors_error hn habove _ _

theorem mirrors_checkAddressOf : Repeats r Eq (checkAddressOf n above) (checkAddressOf n' above') :=
  .same (typeAt_renamed hn 0) fun _ _ => .same rfl fun _ _ =>
    .when .rfl (fun _ => mirrors_warning hn _ _) fun _ => mirrors_fail hn habove _ _

theorem mirrors_checkDereference : Repeats r Eq (checkDereference n above) (checkDereference n' above') :=
  .same (typeAt_renamed hn 0) fun _ _ => .same rfl fun _ _ =>
    .ite .rfl (fun _ => mirrors_stop hn habove _ _ ()) fun _ => mirrors_fail hn habove _ _

theorem mirrors_checkNot : Repeats r Eq (checkNot n above) (checkNot n' above') :=
  .same (valueOf_renamed hn 0) fun _ _ => .same rfl fun _ _ =>
    .ite .rfl (fun _ => mirrors_stop hn habove _ _ ()) fun _ => .same rfl fun _ _ => mirrors_fail hn habove _ _

theorem mirrors_checkSubscript : Repeats r Eq (checkSubscript n above) (checkSubscript n' above') :=
  .same (typeAt_renamed hn 0) fun _ _ => .ite .rfl (fun _ => .same rfl fun _ _ => mirrors_fail hn habove _ _) fun _ =>
    .pure rfl

end

theorem replaceInitializer_renamed (hn : Renamed r.map n n') (hlist : Renamed r.map list list') :
    Renamed r.map (replaceInitializer n list) (replaceInitializer n' list') := by
  refine hn.withChildren (List.forall₂_map_left_iff.2 (List.forall₂_map_right_iff.2 (hn.children.imp fun c c' hc => ?_)))
  rw [hc.id_eq, hlist.id_eq]
  split
  · exact hlist
  · exact hc

theorem mirrors_checkNode (hn : Renamed r.map n n') (habove : RenamedAll r.map above above') :
    Repeats r (Renamed r.map) (checkNode n above) (checkNode n' above') := by
  have hkind := hn.kind_eq
  unfold checkNode
  rw [hkind]
  cases n.kind with
  | returnStmt => exact .andThen (mirrors_checkReturn hn habove) fun _ => .pure hn
  | declarator head =>
    refine .bind (mirrors_checkDeclarator hn habove head) fun list list' hlist => ?_
    cases hlist with
    | none => exact .pure hn
    | some hlist => exact .pure (replaceInitializer_renamed hn hlist)
  | call name callee pieces =>
    refine .andThen (mirrors_checkCall hn habove name callee) fun found => ?_
    cases found with
    | none => exact .pure (hn.withKind _)
    | some found => exact .pure (hn.withKind _)
  | conditional => exact .andThen (mirrors_checkConditional hn habove) fun _ => .pure hn
  | arith op => exact .andThen (mirrors_checkArith hn habove op) fun _ => .pure hn
  | assign => exact .andThen (mirrors_checkAssign hn habove) fun _ => .pure hn
  | logic op => exact .andThen (mirrors_checkLogic hn habove op) fun _ => .pure hn
  | compare op => exact .andThen (mirrors_checkCompare hn habove op) fun _ => .pure hn
  | unary op side => exact .andThen (mirrors_checkUnary hn habove op) fun _ => .pure hn
  | addressOf => exact .andThen (mirrors_checkAddressOf hn habove) fun _ => .pure hn
  | dereference => exact .andThen (mirrors_checkDereference hn habove) fun _ => .pure hn
  | logicalNot => exact .andThen (mirrors_checkNot hn habove) fun _ => .pure hn
  | subscript => exact .andThen (mirrors_checkSubscript hn habove) fun _ => .pure hn
  | _ => exact .pure hn

mutual

theorem mirrors_visit (n : Node) {n' : Node} {above above' : List Node} (hn : Renamed r.map n n')
    (habove : RenamedAll r.map above above') :
    Repeats r (Renamed r.map) (visit above n) (visit above' n') := by
  match n, hn with
  | .mk id kind o cs, @Node.Renamed.mk _ _ _ _ o' _ cs' ho hchildren =>
    have hself : Renamed r.map (.mk id kind o cs) (.mk id (kind.rename r.map) o' cs') := .mk ho hchildren
    have hparts : hasNoParts (kind.rename r.map) = hasNoParts kind := by cases kind <;> rfl
    have hprogram : (kind.rename r.map != .program) = (kind != .program) := by rw [bne, bne, Kind.rename_beq kind rfl]
    have hsound : needsSoundChildren (kind.rename r.map) = needsSoundChildren kind := by cases kind <;> rfl
    rw [visit, visit, hparts, hprogram, hsound]
    refine .ite .rfl (fun _ => .pure hself) fun _ => .ite .rfl (fun _ => .andThen (mirrors_isMarked hself) fun _ =>
      .ite .rfl (fun _ => .pure hself) fun _ => ?_) fun _ => ?_
    all_goals
      refine .bind (mirrors_visitAll cs hchildren (.cons hself habove)) fun ds ds' hds => ?_
      have hchecked := mirrors_checkNode (hself.withChildren hds) habove
      refine .ite .rfl (fun _ => .andThen (mirrors_anyMarked hds) fun _ => .ite .rfl (fun _ => ?_) fun _ => hchecked) fun _ => hchecked
      exact .pure (hself.withChildren hds)

theorem mirrors_visitAll (ns : List Node) {ns' above above' : List Node} (hns : RenamedAll r.map ns ns')
    (habove : RenamedAll r.map above above') :
    Repeats r (RenamedAll r.map) (visitAll above ns) (visitAll above' ns') := by
  match ns, hns with
  | [], .nil => exact .pure .nil
  | n :: ns, .cons hn hns =>
    rw [visitAll, visitAll]
    exact .bind (mirrors_visit n hn habove) fun m m' hm => .bind (mirrors_visitAll ns hns habove) fun ms ms' hms =>
      .pure (.cons hm hms)

end

end Check

end MiniC
