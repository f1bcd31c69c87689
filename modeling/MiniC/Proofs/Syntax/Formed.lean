import MiniC.Syntax.Node

/-!
# Well-formed syntax trees

`Kind.admits` is the abstract grammar: it says which kinds may stand below a node of a kind, and in which order. A
tree is formed if every node of it admits its children. `Kind.bare` takes away from a kind what the passes fill in:
types, symbols, callees, pieces of formats and lengths of arrays. Being formed does not depend on any of this.
-/

namespace MiniC

namespace Kind

def isParameter : Kind → Bool
  | parameter _ => true
  | _ => false

def isDeclarator : Kind → Bool
  | declarator _ => true
  | _ => false

def isVariableDeclaration : Kind → Bool
  | variableDeclaration _ => true
  | _ => false

/-- What stands at the top of a program. -/
def isItem : Kind → Bool
  | includeFile .. | function _ | variableDeclaration _ => true
  | _ => false

/-- What an expression, an argument or an element of an initialiser is made of. -/
def isElement (k : Kind) : Bool := k.isExpression || k.isInitializerList

def isAction (k : Kind) : Bool := k.isExpression || k == statements || (k.isStatement && k != statement)

/-- The first part of the header of a loop. -/
def isFirst (k : Kind) : Bool := k.isExpression || k.isVariableDeclaration

/-- What stands behind a declared name. -/
def isDeclared (k : Kind) : Bool := k.isArrayPart || k.isInitializerList

/-- Kinds stand in the places of conditions one by one. -/
def fits : List (Kind → Bool) → List Kind → Bool
  | [], [] => true
  | p :: ps, k :: ks => p k && fits ps ks
  | _, _ => false

/-- The parts of a loop's header, then its body. -/
def loopParts (initializer condition iteration : Bool) : List (Kind → Bool) :=
  (if initializer then [isFirst] else []) ++ (if condition then [isExpression] else [])
    ++ (if iteration then [isExpression] else []) ++ [(· == statement)]

/-- The kinds that may stand below a node. -/
def admits : Kind → List Kind → Bool
  | program, ks => ks.all isItem
  | function head, ks => head.name.isSome &&
      (if head.form.isDefinition then fits [(· == parameters), (· == statements)] ks else fits [(· == parameters)] ks)
  | parameters, ks => ks.all isParameter
  | parameter _, ks => ks.all isArrayPart
  | arguments, ks => ks.all isExpression
  | initializerList _, ks => ks.all isElement
  | arrayPart, ks => ks.all isExpression
  | statements, ks => ks.all (· == statement)
  | statement, ks => ks.isEmpty || fits [isAction] ks
  | returnStmt, ks => ks.isEmpty || fits [isExpression] ks
  | ifStmt, ks => fits [isExpression, (· == statement)] ks || fits [isExpression, (· == statement), (· == elseBranch)] ks
  | elseBranch, ks => fits [(· == statement)] ks
  | forLoop a b c, ks => fits (loopParts a b c) ks
  | whileLoop, ks => fits [isExpression, (· == statement)] ks
  | doWhile, ks => fits [(· == statements), isExpression] ks
  | variableDeclaration _, ks => ks.all isDeclarator
  | declarator head, ks => head.name.isSome && ks.all isDeclared
  | call called .., ks => called.isSome && fits [(· == arguments)] ks
  | cast .., ks | unary .., ks | addressOf, ks | dereference, ks | logicalNot, ks => fits [isExpression] ks
  | subscript, ks | comma, ks | assign, ks | logic _, ks | compare _, ks | arith _, ks =>
      fits [isExpression, isExpression] ks
  | conditional, ks => fits [isExpression, isExpression, isExpression] ks
  | _, ks => ks.isEmpty

/-- A kind without what the passes fill in. -/
def bare : Kind → Kind
  | parameter head => parameter { head with layers := [] }
  | declarator head => declarator { name := head.name }
  | name text .. => name text none none
  | call called .. => call called none none
  | k => k

@[simp] theorem bare_bare (k : Kind) : k.bare.bare = k.bare := by cases k <;> rfl

@[simp] theorem isExpression_bare (k : Kind) : k.bare.isExpression = k.isExpression := by cases k <;> rfl

@[simp] theorem isInitializerList_bare (k : Kind) : k.bare.isInitializerList = k.isInitializerList := by
  cases k <;> rfl

@[simp] theorem isDefinition_bare (k : Kind) : k.bare.isDefinition = k.isDefinition := by cases k <;> rfl

@[simp] theorem isDeclaration_bare (k : Kind) : k.bare.isDeclaration = k.isDeclaration := by cases k <;> rfl

@[simp] theorem isFor_bare (k : Kind) : k.bare.isFor = k.isFor := by cases k <;> rfl

/-- The conditions that `admits` puts on children. -/
def sorts : List (Kind → Bool) :=
  [isItem, isParameter, isExpression, isElement, isArrayPart, isAction, isFirst, isDeclarator, isDeclared, (· == parameters),
    (· == arguments), (· == statements), (· == statement), (· == elseBranch)]

theorem all_map {f : Kind → Kind} {p : Kind → Bool} (h : ∀ k, p (f k) = p k) (ks : List Kind) :
    (ks.map f).all p = ks.all p := by
  simp [List.all_map, Function.comp_def, h]

theorem fits_map {f : Kind → Kind} {ps : List (Kind → Bool)} (h : ∀ p ∈ ps, ∀ k, p (f k) = p k) (ks : List Kind) :
    fits ps (ks.map f) = fits ps ks := by
  induction ps generalizing ks with
  | nil => cases ks <;> rfl
  | cons p ps ih =>
    cases ks with
    | nil => rfl
    | cons k ks =>
      have hk : p (f k) = p k := h p List.mem_cons_self k
      have hks := ih (fun q hq => h q (List.mem_cons_of_mem p hq)) ks
      simp only [List.map_cons, fits, hk, hks]

/-- Children may be replaced by others of the same sorts. -/
theorem admits_map {f : Kind → Kind} (hf : ∀ p ∈ sorts, ∀ k, p (f k) = p k) (k : Kind) (ks : List Kind) :
    k.admits (ks.map f) = k.admits ks := by
  have hall : ∀ p, p ∈ sorts → (ks.map f).all p = ks.all p := fun p hp => all_map (hf p hp) ks
  have hfits : ∀ ps, (∀ p ∈ ps, p ∈ sorts) → fits ps (ks.map f) = fits ps ks := fun ps h =>
    fits_map (fun p hp => hf p (h p hp)) ks
  cases k with
  | forLoop a b c =>
    refine hfits _ fun p hp => ?_
    simp only [loopParts, List.mem_append, List.mem_ite_nil_right, List.mem_singleton] at hp
    rcases hp with ((⟨-, rfl⟩ | ⟨-, rfl⟩) | ⟨-, rfl⟩) | rfl <;> simp [sorts]
  | program | parameters | parameter | arguments | initializerList | arrayPart | statements | variableDeclaration =>
    exact hall _ (by simp [sorts])
  | declarator head => simp only [admits, hall isDeclared (by simp [sorts])]
  | _ =>
    simp only [admits, List.isEmpty_map]
    repeat rw [hfits _ (by simp [sorts])]

theorem admits_bare (k : Kind) (ks : List Kind) : k.bare.admits (ks.map bare) = k.admits ks := by
  have hsorts : ∀ p ∈ sorts, ∀ k : Kind, p k.bare = p k := by
    intro p hp k
    simp only [sorts, List.mem_cons, List.not_mem_nil, or_false] at hp
    rcases hp with rfl | rfl | rfl | rfl | rfl | rfl | rfl | rfl | rfl | rfl | rfl | rfl | rfl | rfl <;> cases k <;> rfl
  rw [admits_map hsorts]
  cases k <;> rfl

end Kind

namespace Node

mutual

/-- Every node of the tree admits its children. -/
def formed : Node → Bool
  | .mk _ kind _ cs => kind.admits (cs.map Node.kind) && formedAll cs

def formedAll : List Node → Bool
  | [] => true
  | c :: cs => formed c && formedAll cs

end

mutual

/-- A condition on the kinds of all nodes of a tree. -/
def Each (P : Kind → Prop) : Node → Prop
  | .mk _ kind _ cs => P kind ∧ EachAll P cs

def EachAll (P : Kind → Prop) : List Node → Prop
  | [] => True
  | c :: cs => Each P c ∧ EachAll P cs

end

mutual

/-- The tree without what the passes fill in. -/
def bare : Node → Node
  | .mk id kind origin cs => .mk id kind.bare origin (bareAll cs)

def bareAll : List Node → List Node
  | [] => []
  | c :: cs => bare c :: bareAll cs

end

theorem kind_bare (n : Node) : n.bare.kind = n.kind.bare := by cases n; rfl

theorem bareAll_eq (ns : List Node) : bareAll ns = ns.map bare := by
  induction ns with
  | nil => rfl
  | cons n ns ih => rw [bareAll, ih]; rfl

theorem formedAll_eq (ns : List Node) : formedAll ns = ns.all formed := by
  induction ns with
  | nil => rfl
  | cons n ns ih => rw [formedAll, ih]; rfl

/-- Induction over a tree, without a second statement about lists of trees. -/
theorem induct {P : Node → Prop} (h : ∀ id kind o cs, (∀ c ∈ cs, P c) → P (.mk id kind o cs)) (n : Node) : P n :=
  @Node.rec P (fun ns => ∀ n ∈ ns, P n) h (by simp) (fun _ _ hn hns => List.forall_mem_cons.2 ⟨hn, hns⟩) n

theorem formed_child {id : Nat} {kind : Kind} {o : Option ParseTree} {cs : List Node}
    (hf : (Node.mk id kind o cs).formed = true) {c : Node} (hc : c ∈ cs) : c.formed = true :=
  List.all_eq_true.1 (formedAll_eq cs ▸ (Bool.and_eq_true_iff.1 hf).2) c hc

mutual

theorem formed_bare (n : Node) : n.bare.formed = n.formed := by
  match n with
  | .mk id kind origin cs =>
    have hkinds : (bareAll cs).map Node.kind = (cs.map Node.kind).map Kind.bare := by
      simp [bareAll_eq, Function.comp_def, kind_bare]
    rw [bare, formed, formed, hkinds, Kind.admits_bare, formedAll_bare cs]

theorem formedAll_bare (ns : List Node) : formedAll (bareAll ns) = formedAll ns := by
  match ns with
  | [] => rfl
  | n :: ns => rw [bareAll, formedAll, formedAll, formed_bare n, formedAll_bare ns]

end

/-- Trees that differ only in what the passes fill in are both formed or both not. -/
theorem formed_congr {n n' : Node} (h : n'.bare = n.bare) : n'.formed = n.formed := by
  rw [← formed_bare n', h, formed_bare]

end Node

end MiniC
