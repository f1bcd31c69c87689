import MiniC.Compile
import MiniC.Proofs.Pass.Mirror

/-!
# Trees with other names

`Node.Renamed f n n'` says that `n'` is the tree `n` with the names of variables and parameters replaced by `f`, where they
are declared and where they are used. Names of functions stay. The parse trees behind the nodes are of the same shape; the
tokens in them may be others. Types, lengths of arrays and listings do not depend on how variables are called.
-/

namespace MiniC

/-- Parse trees of the same shape. -/
inductive ParseTree.Alike : ParseTree → ParseTree → Prop
  | leaf (token token' : Token) (bad bad' : Bool) : Alike (.leaf token bad) (.leaf token' bad')
  | node (info info' : RuleInfo) {cs cs' : List ParseTree} (h : List.Forall₂ Alike cs cs') : Alike (.node info cs) (.node info' cs')

/-- The kind with other names of variables. -/
def Kind.rename (f : String → String) : Kind → Kind
  | .parameter head => .parameter { head with name := head.name.map f }
  | .declarator head => .declarator { head with name := head.name.map f }
  | .name text type symbol => .name (f text) type symbol
  | k => k

/-- The second tree is the first one with other names of variables. -/
inductive Node.Renamed (f : String → String) : Node → Node → Prop
  | mk {id : Nat} {kind : Kind} {o o' : Option ParseTree} {cs cs' : List Node} (ho : Option.Rel ParseTree.Alike o o')
      (hcs : List.Forall₂ (Renamed f) cs cs') : Renamed f (.mk id kind o cs) (.mk id (kind.rename f) o' cs')

/-- The nodes of the second list are those of the first with other names. -/
abbrev Node.RenamedAll (f : String → String) : List Node → List Node → Prop := List.Forall₂ (Renamed f)

mutual

theorem ParseTree.Alike.refl (t : ParseTree) : t.Alike t := by
  match t with
  | .leaf token bad => exact .leaf token token bad bad
  | .node info cs => exact .node info info (forall₂_refl cs)

theorem ParseTree.Alike.forall₂_refl (ts : List ParseTree) : List.Forall₂ Alike ts ts := by
  match ts with
  | [] => exact .nil
  | t :: ts => exact .cons (refl t) (forall₂_refl ts)

end

mutual

/-- The tree with other names of variables, above the same parse tree. -/
def Node.rename (f : String → String) : Node → Node
  | .mk id kind o cs => .mk id (kind.rename f) o (renameAll f cs)

def Node.renameAll (f : String → String) : List Node → List Node
  | [] => []
  | n :: ns => rename f n :: renameAll f ns

end

variable {f : String → String}

mutual

theorem Node.renamed_rename (n : Node) : Renamed f n (n.rename f) := by
  match n with
  | .mk id kind o cs =>
    have ho : Option.Rel ParseTree.Alike o o := by
      cases o with
      | none => exact .none
      | some t => exact .some (.refl t)
    exact .mk ho (renamed_renameAll cs)

theorem Node.renamed_renameAll (ns : List Node) : RenamedAll f ns (renameAll f ns) := by
  match ns with
  | [] => exact .nil
  | n :: ns => exact .cons (renamed_rename n) (renamed_renameAll ns)

end

/-! ## Kinds -/

namespace Kind

variable (k : Kind)

/-- Kinds that carry the name of a variable. -/
def isNamed : Kind → Bool
  | parameter _ | declarator _ | name .. => true
  | _ => false

@[simp] theorem isExpression_rename : (k.rename f).isExpression = k.isExpression := by cases k <;> rfl

@[simp] theorem isStatement_rename : (k.rename f).isStatement = k.isStatement := by cases k <;> rfl

@[simp] theorem isInitializerList_rename : (k.rename f).isInitializerList = k.isInitializerList := by cases k <;> rfl

@[simp] theorem isArrayPart_rename : (k.rename f).isArrayPart = k.isArrayPart := by cases k <;> rfl

@[simp] theorem isString_rename : (k.rename f).isString = k.isString := by cases k <;> rfl

@[simp] theorem isInteger_rename : (k.rename f).isInteger = k.isInteger := by cases k <;> rfl

@[simp] theorem isName_rename : (k.rename f).isName = k.isName := by cases k <;> rfl

@[simp] theorem isFor_rename : (k.rename f).isFor = k.isFor := by cases k <;> rfl

@[simp] theorem isLoop_rename : (k.rename f).isLoop = k.isLoop := by cases k <;> rfl

@[simp] theorem isDefinition_rename : (k.rename f).isDefinition = k.isDefinition := by cases k <;> rfl

@[simp] theorem isDeclaration_rename : (k.rename f).isDeclaration = k.isDeclaration := by cases k <;> rfl

@[simp] theorem specifiers?_rename : (k.rename f).specifiers? = k.specifiers? := by cases k <;> rfl

theorem rename_eq (h : k.isNamed = false) : k.rename f = k := by cases k <;> first | rfl | cases h

/-- A comparison with a kind that has no name of a variable. -/
theorem rename_beq {c : Kind} (hc : c.isNamed = false) : (k.rename f == c) = (k == c) := by
  cases hk : k.isNamed with
  | false => rw [rename_eq k hk]
  | true =>
    have hne : k ≠ c := fun h => by rw [h, hc] at hk; cases hk
    have hne' : k.rename f ≠ c := fun h => by
      subst h
      cases k <;> simp [isNamed, rename] at hk hc
    rw [beq_false_of_ne hne, beq_false_of_ne hne']

end Kind

/-! ## Nodes -/

namespace Node

variable {n n' : Node} {ns ns' : List Node}

namespace Renamed

theorem id_eq (h : Renamed f n n') : n'.id = n.id := by cases h; rfl

theorem kind_eq (h : Renamed f n n') : n'.kind = n.kind.rename f := by cases h; rfl

theorem origin (h : Renamed f n n') : Option.Rel ParseTree.Alike n.origin n'.origin := by
  cases h with
  | mk ho hcs => exact ho

theorem children (h : Renamed f n n') : RenamedAll f n.children n'.children := by
  cases h with
  | mk ho hcs => exact hcs

theorem withKind (h : Renamed f n n') (kind : Kind) : Renamed f (n.withKind kind) (n'.withKind (kind.rename f)) := by
  cases h with
  | mk ho hcs => exact .mk ho hcs

theorem withChildren (h : Renamed f n n') (hns : RenamedAll f ns ns') :
    Renamed f (n.withChildren ns) (n'.withChildren ns') := by
  cases h with
  | mk ho hcs => exact .mk ho hns

end Renamed

/-! ## Parts of nodes -/

theorem head?_renamed (h : RenamedAll f ns ns') :
    ns'.head?.map Node.kind = (ns.head?.map Node.kind).map (Kind.rename f) := by
  cases h with
  | nil => rfl
  | cons hn _ => simp only [List.head?_cons, Option.map_some, hn.kind_eq]

/-- What is asked of the kind of one of the nodes. -/
theorem any_renamed (h : RenamedAll f ns ns') {p : Kind → Bool} (hp : ∀ k, p (k.rename f) = p k) (i : Nat) :
    (ns'[i]?.any fun n => p n.kind) = ns[i]?.any fun n => p n.kind := by
  have hrel := rel_getElem? h i
  generalize ns[i]? = a at hrel ⊢
  generalize ns'[i]? = a' at hrel ⊢
  cases hrel with
  | none => rfl
  | some hn => simp only [Option.any_some, hn.kind_eq, hp]

namespace Renamed

theorem child (h : Renamed f n n') {i : Nat} {c : Node} (hc : n.child i = .ok c) :
    ∃ c', n'.child i = .ok c' ∧ Renamed f c c' := by
  have hrel := rel_getElem? h.children i
  unfold Node.child at hc ⊢
  generalize n.children[i]? = a at hrel hc
  generalize n'.children[i]? = a' at hrel ⊢
  cases hrel with
  | none => cases hc
  | some hcc => cases hc; exact ⟨_, rfl, hcc⟩

theorem arrayParts (h : Renamed f n n') : RenamedAll f n.arrayParts n'.arrayParts :=
  forall₂_filter h.children fun _ _ hn => by rw [hn.kind_eq, Kind.isArrayPart_rename]

theorem initializer? (h : Renamed f n n') : Option.Rel (Renamed f) n.initializer? n'.initializer? :=
  rel_getLast? (forall₂_filter h.children fun _ _ hn => by rw [hn.kind_eq, Kind.isInitializerList_rename])

theorem parameters? (h : Renamed f n n') : Option.Rel (Renamed f) n.parameters? n'.parameters? :=
  rel_find? h.children fun _ _ hn => by rw [hn.kind_eq, Kind.rename_beq _ rfl]

theorem arguments? (h : Renamed f n n') : Option.Rel (Renamed f) n.arguments? n'.arguments? :=
  rel_find? h.children fun _ _ hn => by rw [hn.kind_eq, Kind.rename_beq _ rfl]

end Renamed

/-! ## Types -/

theorem specifiers?_map (around : Option Kind) :
    (around.map (Kind.rename f)).bind Kind.specifiers? = around.bind Kind.specifiers? := by
  cases around with
  | none => rfl
  | some k => exact Kind.specifiers?_rename k

theorem declaratorType_rename (around : Option Kind) (head : DeclaratorHead) :
    declaratorType (around.map (Kind.rename f)) { head with name := head.name.map f } = declaratorType around head := by
  rw [declaratorType, declaratorType, specifiers?_map]

mutual

theorem Renamed.typeOf? {n n' : Node} (h : Renamed f n n') (around : Option Kind) :
    n'.typeOf? (around.map (Kind.rename f)) = n.typeOf? around := by
  match n, h with
  | .mk id kind o cs, .mk ho hcs =>
    have htypes := typesOf_renamed hcs kind
    cases kind with
    | declarator head => exact congrArg (some <$> ·) (declaratorType_rename around head)
    | _ =>
      simp only [Kind.rename] at htypes
      simp only [Kind.rename, Node.typeOf?, htypes]

theorem typesOf_renamed {ns ns' : List Node} (h : RenamedAll f ns ns') (around : Kind) :
    typesOf (around.rename f) ns' = typesOf around ns := by
  match ns, h with
  | [], .nil => rfl
  | n :: ns, .cons hn hns =>
    have htype := hn.typeOf? (some around)
    rw [Option.map_some] at htype
    rw [typesOf, typesOf, htype, typesOf_renamed hns around]

end

theorem Renamed.typeOf (h : Renamed f n n') (around : Option Kind) :
    n'.typeOf (around.map (Kind.rename f)) = n.typeOf around := by
  rw [Node.typeOf, Node.typeOf, h.typeOf?]

@[grind →] theorem Renamed.exprType (h : Renamed f n n') : n'.exprType = n.exprType := h.typeOf none

/-! ## Lengths of arrays -/

theorem initialLength_renamed (type : CType) (h : RenamedAll f ns ns') :
    initialLength type ns' = initialLength type ns := by
  cases h with
  | nil => rfl
  | @cons n n' ns ns' hn hns =>
    have htype := hn.exprType
    have hlength := hns.length_eq
    cases hn with
    | @mk id kind o o' cs cs' ho hcs =>
      cases kind with
      | string raw codes =>
        simp only [initialLength, Kind.rename, List.length_cons, hlength] at htype ⊢
        rw [htype]
      | _ => simp only [initialLength, Kind.rename, List.length_cons, hlength]

theorem Renamed.writtenLength? (h : Renamed f n n') : Node.writtenLength? n' = Node.writtenLength? n := by
  cases h with
  | mk ho hcs =>
    cases hcs with
    | nil => rfl
    | cons hc _ =>
      cases hc with
      | @mk id kind o o' cs cs' ho hcs => cases kind <;> rfl

theorem fillLengths_renamed (initial : Option (Except Fault Int)) (layers : List Layer)
    (h : RenamedAll f ns ns') : fillLengths initial layers ns' = fillLengths initial layers ns := by
  induction layers generalizing initial ns ns' with
  | nil => rfl
  | cons layer rest ih =>
    cases h with
    | nil => rfl
    | @cons pair pair' more more' hpair hmore =>
      have hempty : pair'.children.isEmpty = pair.children.isEmpty := by
        have hchildren := hpair.children
        generalize pair.children = ds at hchildren ⊢
        generalize pair'.children = ds' at hchildren ⊢
        cases hchildren <;> rfl
      simp only [fillLengths, hpair.writtenLength?, hempty, ih none hmore, ih initial (.cons hpair hmore)]

theorem Renamed.measured (h : Renamed f n n') (around : Option Kind) :
    n'.measured (around.map (Kind.rename f)) = Kind.rename f <$> n.measured around := by
  have hparts := h.arrayParts
  have hlist := h.initializer?
  have hkind := h.kind_eq
  unfold Node.measured
  rw [hkind]
  cases n.kind with
  | declarator head =>
    simp only [Kind.rename, fillLengths_renamed _ _ hparts]
    generalize n.initializer? = a at hlist ⊢
    generalize n'.initializer? = a' at hlist ⊢
    cases hlist with
    | none => simp only [pure_bind, map_bind, map_pure, Kind.rename]
    | some hl =>
      simp only [declaratorType_rename, initialLength_renamed _ hl.children]
      split <;> simp only [pure_bind, map_bind, map_pure, Kind.rename]
  | parameter head =>
    simp only [Kind.rename, fillLengths_renamed _ _ hparts, map_bind, map_pure]
  | _ => rfl

mutual

theorem Renamed.withLengths {n n' m : Node} (h : Renamed f n n') {around : Option Kind} (hm : n.withLengths around = .ok m) :
    ∃ m', n'.withLengths (around.map (Kind.rename f)) = .ok m' ∧ Renamed f m m' := by
  match n, h with
  | .mk id kind o cs, .mk ho hcs =>
    rw [Node.withLengths] at hm
    obtain ⟨kind', hkind, hm⟩ := except_bind_eq_ok.1 hm
    obtain ⟨ds, hds, hm⟩ := except_bind_eq_ok.1 hm
    cases hm
    have hself : Renamed f (.mk id kind o cs) _ := .mk ho hcs
    have hmeasured := hself.measured around
    rw [hkind] at hmeasured
    obtain ⟨ds', hds', hrenamed⟩ := withLengthsAll_renamed hcs hds
    refine ⟨.mk id (kind'.rename f) _ ds', ?_, .mk ho hrenamed⟩
    rw [Node.withLengths, hmeasured]
    exact except_bind_eq_ok.2 ⟨_, rfl, except_bind_eq_ok.2 ⟨ds', hds', rfl⟩⟩

theorem withLengthsAll_renamed {ns ns' ms : List Node} (h : RenamedAll f ns ns') {around : Kind}
    (hms : withLengthsAll around ns = .ok ms) :
    ∃ ms', withLengthsAll (around.rename f) ns' = .ok ms' ∧ RenamedAll f ms ms' := by
  match ns, h with
  | [], .nil => cases hms; exact ⟨[], rfl, .nil⟩
  | n :: ns, .cons hn hns =>
    rw [withLengthsAll] at hms
    obtain ⟨m, hm, hms⟩ := except_bind_eq_ok.1 hms
    obtain ⟨rest, hrest, hms⟩ := except_bind_eq_ok.1 hms
    cases hms
    obtain ⟨m', hm', hmm⟩ := hn.withLengths hm
    obtain ⟨rest', hrest', hrr⟩ := withLengthsAll_renamed hns hrest
    refine ⟨m' :: rest', ?_, .cons hmm hrr⟩
    rw [withLengthsAll]
    exact except_bind_eq_ok.2 ⟨m', hm', except_bind_eq_ok.2 ⟨rest', hrest', rfl⟩⟩

end

/-! ## Listings -/

theorem ownLines_rename {around : Option Kind} {level count : Nat} {kind : Kind} {text : String}
    (h : ownLines around level count kind = .ok text) :
    ∃ text', ownLines (around.map (Kind.rename f)) level count (kind.rename f) = .ok text' := by
  cases kind with
  | declarator head =>
    cases hname : head.name with
    | none => simp [ownLines, hname] at h
    | some x =>
      simp only [ownLines, hname] at h
      obtain ⟨type, htype, -⟩ := except_bind_eq_ok.1 h
      have htype' := (declaratorType_rename (f := f) around head).trans htype
      rw [hname] at htype'
      simp only [ownLines, Kind.rename, hname, Option.map_some]
      exact ⟨_, except_bind_eq_ok.2 ⟨type, htype', rfl⟩⟩
  | parameter head => exact ⟨_, rfl⟩
  | name x type symbol => exact ⟨_, rfl⟩
  | _ => exact ⟨text, h⟩

mutual

theorem Renamed.render {n n' : Node} (h : Renamed f n n') {around : Option Kind} {level : Nat} {text : String}
    (ht : n.render around level = .ok text) : ∃ text', n'.render (around.map (Kind.rename f)) level = .ok text' := by
  match n, h with
  | .mk id kind o cs, .mk ho hcs =>
    rw [Node.render] at ht
    obtain ⟨own, hown, ht⟩ := except_bind_eq_ok.1 ht
    obtain ⟨own', hown'⟩ := ownLines_rename (f := f) hown
    have halone : isListedAlone (kind.rename f) = isListedAlone kind := by cases kind <;> rfl
    have hcaptions : captions (kind.rename f) = captions kind := by cases kind <;> rfl
    rw [Node.render, ← hcs.length_eq, halone, hcaptions]
    cases hlisted : isListedAlone kind with
    | true => exact ⟨own', except_bind_eq_ok.2 ⟨own', hown', rfl⟩⟩
    | false =>
      simp only [hlisted, Bool.false_eq_true, if_false] at ht ⊢
      obtain ⟨below, hbelow, -⟩ := except_bind_eq_ok.1 ht
      obtain ⟨below', hbelow'⟩ := renderAll_renamed hcs hbelow
      exact ⟨_, except_bind_eq_ok.2 ⟨own', hown', except_bind_eq_ok.2 ⟨below', hbelow', rfl⟩⟩⟩

theorem renderAll_renamed {ns ns' : List Node} (h : RenamedAll f ns ns') {around : Kind} {level : Nat}
    {captions : List (Option String)} {text : String} (ht : renderAll around level captions ns = .ok text) :
    ∃ text', renderAll (around.rename f) level captions ns' = .ok text' := by
  match ns, h with
  | [], .nil => exact ⟨"", rfl⟩
  | _, @List.Forall₂.cons _ _ _ n m ns ms hn hns =>
    have hplain : ∀ {captions : List (Option String)}, (do
        let first ← Node.render (some around) (level + 1) n
        let rest ← renderAll around level captions ns
        return first ++ rest) = .ok text → ∃ text', (do
        let first ← Node.render (some (around.rename f)) (level + 1) m
        let rest ← renderAll (around.rename f) level captions ms
        return first ++ rest) = .ok text' := by
      intro captions ht
      obtain ⟨first, hfirst, ht⟩ := except_bind_eq_ok.1 ht
      obtain ⟨rest, hrest, -⟩ := except_bind_eq_ok.1 ht
      obtain ⟨first', hfirst'⟩ := hn.render hfirst
      obtain ⟨rest', hrest'⟩ := renderAll_renamed hns hrest
      exact ⟨_, except_bind_eq_ok.2 ⟨first', hfirst', except_bind_eq_ok.2 ⟨rest', hrest', rfl⟩⟩⟩
    match captions with
    | [] => simpa only [renderAll] using hplain (by simpa only [renderAll] using ht)
    | none :: captions => simpa only [renderAll] using hplain (by simpa only [renderAll] using ht)
    | some caption :: captions =>
      simp only [renderAll, pure_bind] at ht ⊢
      obtain ⟨first, hfirst, ht⟩ := except_bind_eq_ok.1 ht
      obtain ⟨rest, hrest, -⟩ := except_bind_eq_ok.1 ht
      obtain ⟨first', hfirst'⟩ := hn.render hfirst
      obtain ⟨rest', hrest'⟩ := renderAll_renamed hns hrest
      exact ⟨_, except_bind_eq_ok.2 ⟨first', hfirst', except_bind_eq_ok.2 ⟨rest', hrest', rfl⟩⟩⟩

end

theorem Renamed.listing (h : Renamed f n n') {text : String} (ht : n.listing = .ok text) : ∃ text', n'.listing = .ok text' := by
  obtain ⟨own, hown, -⟩ := except_bind_eq_ok.1 ht
  obtain ⟨own', hown'⟩ := h.render hown
  exact ⟨_, except_bind_eq_ok.2 ⟨own', hown', rfl⟩⟩

/-! ## Numbers and positions -/

mutual

theorem Renamed.nextId {n n' : Node} (h : Renamed f n n') : n'.nextId = n.nextId := by
  match n, h with
  | .mk id kind o cs, .mk ho hcs => rw [Node.nextId, Node.nextId, nextIdOf_renamed hcs]

theorem nextIdOf_renamed {ns ns' : List Node} (h : RenamedAll f ns ns') :
    nextId.nextIdOf ns' = nextId.nextIdOf ns := by
  match ns, h with
  | [], .nil => rfl
  | n :: ns, .cons hn hns => rw [nextId.nextIdOf, nextId.nextIdOf, hn.nextId, nextIdOf_renamed hns]

end

theorem nthTree_alike {t t' c : ParseTree} (h : ParseTree.Alike t t') {i : Nat} (hc : nthTree t i = .ok c) :
    ∃ c', nthTree t' i = .ok c' ∧ ParseTree.Alike c c' := by
  have hrel : Option.Rel ParseTree.Alike t.children[i]? t'.children[i]? := by
    cases h with
    | leaf => exact .none
    | node info info' hcs => exact rel_getElem? hcs i
  unfold nthTree at hc ⊢
  generalize t.children[i]? = a at hrel hc
  generalize t'.children[i]? = a' at hrel ⊢
  cases hrel with
  | none => cases hc
  | some hcc => cases hc; exact ⟨_, rfl, hcc⟩

theorem Renamed.tree (h : Renamed f n n') {t : ParseTree} (ht : n.tree = .ok t) :
    ∃ t', n'.tree = .ok t' ∧ ParseTree.Alike t t' := by
  have hrel := h.origin
  unfold Node.tree at ht ⊢
  generalize n.origin = a at hrel ht
  generalize n'.origin = a' at hrel ⊢
  cases hrel with
  | none => cases ht
  | some htt => cases ht; exact ⟨_, rfl, htt⟩

/-- A message about the one tree has a place, if one about the other has. -/
theorem Renamed.position (h : Renamed f n n') {operand : Option Nat} {p : Position} (hp : n.position operand = .ok p) :
    ∃ p', n'.position operand = .ok p' := by
  have hnth : ∀ {i : Nat} {c : ParseTree}, (n.tree >>= (nthTree · i)) = .ok c →
      ∃ c', (n'.tree >>= (nthTree · i)) = .ok c' ∧ ParseTree.Alike c c' := by
    intro i c hc
    obtain ⟨t, ht, hc⟩ := except_bind_eq_ok.1 hc
    obtain ⟨t', ht', htt⟩ := h.tree ht
    obtain ⟨c', hc', hcc⟩ := nthTree_alike htt hc
    exact ⟨c', except_bind_eq_ok.2 ⟨t', ht', hc'⟩, hcc⟩
  unfold Node.position at hp ⊢
  rw [h.kind_eq]
  cases hkind : n.kind with
  | call called callee pieces =>
    rw [hkind] at hp
    cases operand with
    | none => exact ⟨_, rfl⟩
    | some i =>
      obtain ⟨arguments, harguments, hp⟩ := except_bind_eq_ok.1 hp
      obtain ⟨argument, hargument, -⟩ := except_bind_eq_ok.1 hp
      obtain ⟨arguments', harguments', halike⟩ := hnth harguments
      obtain ⟨argument', hargument', -⟩ := nthTree_alike halike hargument
      exact ⟨_, except_bind_eq_ok.2 ⟨arguments', harguments', except_bind_eq_ok.2 ⟨argument', hargument', rfl⟩⟩⟩
  | conditional =>
    rw [hkind] at hp
    obtain ⟨t, ht, hp⟩ := except_bind_eq_ok.1 hp
    obtain ⟨t', ht', halike⟩ := h.tree ht
    cases operand with
    | none => cases hp
    | some i =>
      obtain ⟨part, hpart, -⟩ := except_bind_eq_ok.1 hp
      obtain ⟨part', hpart', -⟩ := nthTree_alike halike hpart
      exact ⟨_, except_bind_eq_ok.2 ⟨t', ht', except_bind_eq_ok.2 ⟨part', hpart', rfl⟩⟩⟩
  | compare op =>
    rw [hkind] at hp
    obtain ⟨sign, hsign, hp⟩ := except_bind_eq_ok.1 hp
    obtain ⟨sign', hsign', halike⟩ := hnth hsign
    cases halike with
    | leaf token token' bad bad' => exact ⟨_, except_bind_eq_ok.2 ⟨_, hsign', rfl⟩⟩
    | node info info' hcs => cases hp
  | dereference =>
    rw [hkind] at hp
    obtain ⟨part, hpart, -⟩ := except_bind_eq_ok.1 hp
    obtain ⟨part', hpart', -⟩ := hnth hpart
    exact ⟨_, except_bind_eq_ok.2 ⟨part', hpart', rfl⟩⟩
  | _ => exact ⟨_, rfl⟩

end Node

end MiniC
