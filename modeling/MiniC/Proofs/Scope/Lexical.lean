import MiniC.Proofs.Syntax.Formed

/-!
# Lexical scopes

The rules by which a name stands for a declaration, said of the tree alone. A block, a loop with a header and a
function with a body have scopes of their own; a name is visible from its declarator on to the end of the scope, also
in its own initialiser. `Env.past` goes over a tree and says what is visible behind it. A `Spot` is a place in a tree
with what is visible there, and with the numbers of the scopes around it if scopes are numbered in their order.
-/

namespace MiniC.Lexical

/-- What is visible at a place: the names of each scope around it, innermost first, and those of the file. Each name
goes with the node that declares it. -/
structure Env where
  locals : List (List (String × Nat)) := []
  globals : List (String × Nat) := []
  deriving DecidableEq, Repr, Inhabited

namespace Env

def declare (env : Env) (x : String) (id : Nat) : Env :=
  match env.locals with
  | [] => { env with globals := (x, id) :: env.globals }
  | names :: rest => { env with locals := ((x, id) :: names) :: rest }

/-- In a new scope. -/
def opened (env : Env) : Env := { env with locals := [] :: env.locals }

/-- The node that declares a name, and the number of frames between it and the place: a global is one frame away
from the inside of a function. -/
def find? (env : Env) (x : String) : Option (Nat × Int) :=
  match env.locals.findSome? (·.lookup x) with
  | some id => some (id, 0)
  | none => (env.globals.lookup x).map fun id => (id, if env.locals.isEmpty then 0 else 1)

end Env

/-- A node has a scope of its own; the block of a function shares that of the function. -/
def opens (above : List Kind) : Kind → Bool
  | .function head => head.form.isDefinition
  | .statements => match above with
    | parent :: _ => !(parent.isDefinition || parent.isFor)
    | [] => true
  | .forLoop .. => true
  | _ => false

/-- The name that a node declares; the parameters of a function without a body declare nothing. -/
def declares? (above : List Kind) : Kind → Option String
  | .declarator head => head.name
  | .parameter head => if above[1]?.any Kind.isDeclaration then none else head.name
  | _ => none

/-- What is visible at the children of a node. -/
def Env.within (env : Env) (above : List Kind) (id : Nat) (kind : Kind) : Env :=
  if opens above kind then env.opened
  else
    match declares? above kind with
    | some x => env.declare x id
    | none => env

mutual

/-- What is visible behind a node. -/
def Env.past (env : Env) (above : List Kind) : Node → Env
  | .mk id kind _ cs =>
    if opens above kind then env else pastAll (env.within above id kind) (kind :: above) cs

def Env.pastAll (env : Env) (above : List Kind) : List Node → Env
  | [] => env
  | c :: cs => pastAll (env.past above c) above cs

end

mutual

/-- The number of scopes in a tree. -/
def scopes (above : List Kind) : Node → Nat
  | .mk _ kind _ cs => (opens above kind).toNat + scopesAll (kind :: above) cs

def scopesAll (above : List Kind) : List Node → Nat
  | [] => 0
  | c :: cs => scopes above c + scopesAll above cs

end

/-! ## What the rules do not depend on -/

section

variable {above : List Kind} {env : Env} {n : Node} {ns : List Node} {kind : Kind}

@[simp] theorem opens_bare (above : List Kind) (kind : Kind) :
    opens (above.map Kind.bare) kind.bare = opens above kind := by
  cases kind with
  | statements =>
    cases above with
    | nil => rfl
    | cons parent rest =>
      change (!(parent.bare.isDefinition || parent.bare.isFor)) = !(parent.isDefinition || parent.isFor)
      rw [Kind.isDefinition_bare, Kind.isFor_bare]
  | _ => rfl

@[simp] theorem declares?_bare (above : List Kind) (kind : Kind) :
    declares? (above.map Kind.bare) kind.bare = declares? above kind := by
  cases kind with
  | parameter head =>
    have habove : (above.map Kind.bare)[1]?.any Kind.isDeclaration = above[1]?.any Kind.isDeclaration := by
      rw [List.getElem?_map]
      cases above[1]? <;> simp
    simp only [Kind.bare, declares?, habove]
  | _ => rfl

theorem within_bare (env : Env) (above : List Kind) (id : Nat) (kind : Kind) :
    env.within (above.map Kind.bare) id kind.bare = env.within above id kind := by
  simp only [Env.within, opens_bare, declares?_bare]

mutual

theorem past_bare (env : Env) (above : List Kind) (n : Node) :
    env.past (above.map Kind.bare) n.bare = env.past above n := by
  match n with
  | .mk id kind o cs =>
    have hcs := pastAll_bare (env.within above id kind) (kind :: above) cs
    rw [List.map_cons] at hcs
    simp only [Node.bare, Env.past, opens_bare, within_bare, hcs]

theorem pastAll_bare (env : Env) (above : List Kind) (ns : List Node) :
    env.pastAll (above.map Kind.bare) (Node.bareAll ns) = env.pastAll above ns := by
  match ns with
  | [] => rfl
  | n :: ns => simp only [Node.bareAll, Env.pastAll, past_bare env above n, pastAll_bare _ above ns]

end

end

end MiniC.Lexical

namespace MiniC

variable {ks : List Kind} {k : Kind}

namespace Kind

/-- What declares nothing and has no scope: expressions, lists of them, and brackets. -/
def isInert (k : Kind) : Bool := k.isExpression || k == arguments || k.isDeclared

@[simp] theorem isInert_bare (k : Kind) : k.bare.isInert = k.isInert := by cases k <;> rfl

theorem fits_mem {ps : List (Kind → Bool)} (h : fits ps ks = true) : ∀ k ∈ ks, ∃ p ∈ ps, p k = true := by
  induction ps generalizing ks with
  | nil =>
    cases ks with
    | nil => simp
    | cons k ks => cases h
  | cons p ps ih =>
    cases ks with
    | nil => cases h
    | cons k ks =>
      obtain ⟨hk, hks⟩ : p k = true ∧ fits ps ks = true := by simpa [fits] using h
      rintro j (_ | ⟨_, hj⟩)
      · exact ⟨p, List.mem_cons_self, hk⟩
      · obtain ⟨q, hq, hqj⟩ := ih hks j hj
        exact ⟨q, List.mem_cons_of_mem p hq, hqj⟩

theorem isInert_of_isExpression (h : k.isExpression = true) : k.isInert = true := by simp [isInert, h]

theorem isInert_of_isElement (h : k.isElement = true) : k.isInert = true := by
  obtain h | h : k.isExpression = true ∨ k.isInitializerList = true := by simpa [isElement] using h
  · exact isInert_of_isExpression h
  · simp [isInert, isDeclared, h]

/-- Below what is inert everything is. -/
theorem inert_of_admits (hk : k.isInert = true) (h : k.admits ks = true) : ∀ j ∈ ks, j.isInert = true := by
  have hexpr : ∀ ps : List (Kind → Bool), (∀ p ∈ ps, p = isExpression) → fits ps ks = true → ∀ j ∈ ks, j.isInert = true := by
    intro ps hps hfits j hj
    obtain ⟨p, hp, hpj⟩ := fits_mem hfits j hj
    rw [hps p hp] at hpj
    exact isInert_of_isExpression hpj
  cases k with
  | arguments => exact fun j hj => isInert_of_isExpression (List.all_eq_true.1 h j hj)
  | arrayPart => exact fun j hj => isInert_of_isExpression (List.all_eq_true.1 h j hj)
  | initializerList _ => exact fun j hj => isInert_of_isElement (List.all_eq_true.1 h j hj)
  | call called callee pieces =>
    intro j hj
    have hfits : fits [(· == arguments)] ks = true := (Bool.and_eq_true_iff.1 h).2
    obtain ⟨p, hp, hpj⟩ := fits_mem hfits j hj
    obtain rfl := List.mem_singleton.1 hp
    obtain rfl : j = arguments := by simpa using hpj
    rfl
  | cast | unary | addressOf | dereference | logicalNot | subscript | comma | assign | logic | compare | arith
  | conditional => exact hexpr _ (by simp) h
  | integer | float | character | string | name =>
    obtain rfl := List.isEmpty_iff.1 h
    simp
  | _ => cases hk

/-- What stands inside the body of a function, or in the declaration of a variable. -/
def isInner (k : Kind) : Bool := k.isInert || k.isStatement || k.isDeclarator || k == statements || k == elseBranch

theorem isInner_of_isInert (h : k.isInert = true) : k.isInner = true := by simp [isInner, h]

theorem isInner_of_isAction (h : k.isAction = true) : k.isInner = true := by
  cases k <;> first | rfl | cases h

theorem isInner_of_isFirst (h : k.isFirst = true) : k.isInner = true := by
  cases k <;> first | rfl | cases h

theorem isInner_of_fits {ps : List (Kind → Bool)} (h : fits ps ks = true)
    (hps : ∀ p ∈ ps, ∀ k, p k = true → k.isInner = true) : ∀ k ∈ ks, k.isInner = true := by
  intro k hk
  obtain ⟨p, hp, hpk⟩ := fits_mem h k hk
  exact hps p hp k hpk

theorem mem_loopParts {p : Kind → Bool} {a b c : Bool} (h : p ∈ loopParts a b c) :
    p = isFirst ∨ p = isExpression ∨ p = (· == statement) := by
  cases a <;> cases b <;> cases c <;> simp [loopParts] at h <;> grind

/-- Functions and what belongs to their heads do not stand inside of others. -/
theorem inner_of_admits (hk : k.isInner = true) (h : k.admits ks = true) : ∀ j ∈ ks, j.isInner = true := by
  have hexpr : ∀ j : Kind, j.isExpression = true → j.isInner = true := fun j hj =>
    isInner_of_isInert (isInert_of_isExpression hj)
  have hstatement : ∀ j : Kind, (j == statement) = true → j.isInner = true := fun j hj => by
    rw [beq_iff_eq.1 hj]; rfl
  have hstatements : ∀ j : Kind, (j == statements) = true → j.isInner = true := fun j hj => by
    rw [beq_iff_eq.1 hj]; rfl
  have hbranch : ∀ j : Kind, (j == elseBranch) = true → j.isInner = true := fun j hj => by
    rw [beq_iff_eq.1 hj]; rfl
  have hempty : ks.isEmpty = true → ∀ j ∈ ks, j.isInner = true := fun hks => by
    rw [List.isEmpty_iff.1 hks]; simp
  by_cases hinert : k.isInert = true
  · exact fun j hj => isInner_of_isInert (inert_of_admits hinert h j hj)
  · cases k with
    | statements => exact fun j hj => hstatement j (List.all_eq_true.1 h j hj)
    | statement =>
      obtain hks | hfits := Bool.or_eq_true_iff.1 h
      · exact hempty hks
      · exact isInner_of_fits hfits (by simpa using fun j => isInner_of_isAction)
    | returnStmt =>
      obtain hks | hfits := Bool.or_eq_true_iff.1 h
      · exact hempty hks
      · exact isInner_of_fits hfits (by simpa using hexpr)
    | ifStmt =>
      obtain hfits | hfits := Bool.or_eq_true_iff.1 h
      · exact isInner_of_fits hfits (by simpa using ⟨hexpr, rfl⟩)
      · exact isInner_of_fits hfits (by simpa using ⟨hexpr, rfl, rfl⟩)
    | elseBranch => exact isInner_of_fits h fun p hp => by rw [List.mem_singleton.1 hp]; exact hstatement
    | forLoop a b c =>
      refine isInner_of_fits h fun p hp => ?_
      obtain rfl | rfl | rfl := mem_loopParts hp
      · exact fun j => isInner_of_isFirst
      · exact hexpr
      · exact hstatement
    | whileLoop => exact isInner_of_fits h (by simpa using ⟨hexpr, rfl⟩)
    | doWhile => exact isInner_of_fits h (by simpa using ⟨rfl, hexpr⟩)
    | variableDeclaration spec =>
      intro j hj
      have := List.all_eq_true.1 h j hj
      simp [isInner, this]
    | declarator head =>
      intro j hj
      have := List.all_eq_true.1 (Bool.and_eq_true_iff.1 h).2 j hj
      simp [isInner, isInert, this]
    | breakStmt => exact hempty h
    | continueStmt => exact hempty h
    | _ => first | exact (hinert rfl).elim | cases hk

end Kind

namespace Lexical

variable {above : List Kind} {env : Env} {n : Node} {ns : List Node} {kind : Kind} {id : Nat} {o : Option ParseTree}
  {cs : List Node}

theorem opens_inert (h : kind.isInert = true) : opens above kind = false := by cases kind <;> first | rfl | cases h

theorem within_inert (h : kind.isInert = true) (id : Nat) : env.within above id kind = env := by
  cases kind <;> first | rfl | cases h

theorem inert_children (hf : (Node.mk id kind o cs).formed = true) (h : kind.isInert = true) :
    Node.formedAll cs = true ∧ ∀ c ∈ cs, c.kind.isInert = true := by
  obtain ⟨hadmits, hcs⟩ := Bool.and_eq_true_iff.1 hf
  exact ⟨hcs, fun c hc => Kind.inert_of_admits h hadmits c.kind (List.mem_map_of_mem hc)⟩

mutual

theorem past_inert (env : Env) (above : List Kind) (n : Node) (hf : n.formed = true) (h : n.kind.isInert = true) :
    env.past above n = env ∧ scopes above n = 0 := by
  match n with
  | .mk id kind o cs =>
    obtain ⟨hcs, hinert⟩ := inert_children hf h
    obtain ⟨hpast, hscopes⟩ := pastAll_inert env (kind :: above) cs hcs hinert
    have h : kind.isInert = true := h
    simp [Env.past, scopes, opens_inert h, within_inert h, hpast, hscopes]

theorem pastAll_inert (env : Env) (above : List Kind) (ns : List Node) (hf : Node.formedAll ns = true)
    (h : ∀ n ∈ ns, n.kind.isInert = true) : env.pastAll above ns = env ∧ scopesAll above ns = 0 := by
  match ns with
  | [] => exact ⟨rfl, rfl⟩
  | n :: ns =>
    obtain ⟨hn, hns⟩ := Bool.and_eq_true_iff.1 hf
    obtain ⟨hpast, hscopes⟩ := past_inert env above n hn (h n List.mem_cons_self)
    obtain ⟨hpasts, hscopess⟩ := pastAll_inert env above ns hns fun m hm => h m (List.mem_cons_of_mem n hm)
    simp [Env.pastAll, scopesAll, hpast, hscopes, hpasts, hscopess]

end

/-! ## The innermost scope -/

/-- The second environment differs from the first only in the innermost scope. -/
structure Env.Deeper (env env' : Env) : Prop where
  tail : env'.locals.tail = env.locals.tail
  isEmpty : env'.locals.isEmpty = env.locals.isEmpty
  globals : env.locals.isEmpty = false → env'.globals = env.globals

theorem Env.Deeper.refl (env : Env) : env.Deeper env := ⟨rfl, rfl, fun _ => rfl⟩

theorem Env.Deeper.trans {env1 env' : Env} (h : env.Deeper env1) (h' : env1.Deeper env') : env.Deeper env' :=
  ⟨h'.tail.trans h.tail, h'.isEmpty.trans h.isEmpty, fun hin => (h'.globals (h.isEmpty.trans hin)).trans (h.globals hin)⟩

theorem Env.deeper_declare (env : Env) (x : String) (id : Nat) : env.Deeper (env.declare x id) := by
  obtain ⟨_ | ⟨names, rest⟩, globals⟩ := env
  · exact ⟨rfl, rfl, fun h => by cases h⟩
  · exact ⟨rfl, rfl, fun _ => rfl⟩

theorem Env.deeper_within (h : opens above kind = false) (env : Env) (id : Nat) :
    env.Deeper (env.within above id kind) := by
  simp only [Env.within, h, Bool.false_eq_true, if_false]
  split
  · exact env.deeper_declare _ _
  · exact .refl env

mutual

/-- What is declared in a tree is declared in the scope around it. -/
theorem Env.deeper_past (env : Env) (above : List Kind) (n : Node) : env.Deeper (env.past above n) := by
  match n with
  | .mk id kind o cs =>
    rw [Env.past]
    split
    · exact .refl env
    next h => exact (env.deeper_within (Bool.eq_false_iff.2 h) id).trans (Env.deeper_pastAll _ _ cs)

theorem Env.deeper_pastAll (env : Env) (above : List Kind) (ns : List Node) : env.Deeper (env.pastAll above ns) := by
  match ns with
  | [] => exact .refl env
  | n :: ns => exact (Env.deeper_past env above n).trans (Env.deeper_pastAll _ above ns)

end

/-! ## Places in a tree -/

/-- A place in a tree: the kinds of the nodes above it, innermost first, what is visible there, the scope it is in and
those around, and the number of scopes in front of it. -/
structure Spot where
  above : List Kind := []
  env : Env := {}
  scope : Nat := 0
  around : List Nat := []
  next : Nat := 1

namespace Spot

/-- The place of the children of a node. -/
def into (sp : Spot) (id : Nat) (kind : Kind) : Spot where
  above := kind.bare :: sp.above
  env := sp.env.within sp.above id kind.bare
  scope := if opens sp.above kind.bare then sp.next else sp.scope
  around := if opens sp.above kind.bare then sp.scope :: sp.around else sp.around
  next := sp.next + (opens sp.above kind.bare).toNat

/-- The place behind a node. -/
def past (sp : Spot) (n : Node) : Spot :=
  { sp with env := sp.env.past sp.above n.bare, next := sp.next + scopes sp.above n.bare }

def pastAll (sp : Spot) (ns : List Node) : Spot :=
  { sp with env := sp.env.pastAll sp.above (Node.bareAll ns), next := sp.next + scopesAll sp.above (Node.bareAll ns) }

@[simp] theorem pastAll_nil (sp : Spot) : sp.pastAll [] = sp := rfl

theorem pastAll_cons (sp : Spot) (n : Node) (ns : List Node) : sp.pastAll (n :: ns) = (sp.past n).pastAll ns := by
  simp [pastAll, past, Node.bareAll, Env.pastAll, scopesAll, Nat.add_assoc]

section

variable {sp : Spot}

/-- Behind a node without a scope of its own is what is behind its children. -/
theorem past_closed (h : opens sp.above kind.bare = false) :
    sp.past (.mk id kind o cs) = { (sp.into id kind).pastAll cs with above := sp.above } := by
  simp [past, pastAll, into, Node.bare, Env.past, scopes, h]

/-- Behind a node with a scope of its own only more scopes have been there. -/
theorem past_opened (h : opens sp.above kind.bare = true) :
    sp.past (.mk id kind o cs) = { sp with next := ((sp.into id kind).pastAll cs).next } := by
  simp [past, pastAll, into, Node.bare, Env.past, scopes, h, Nat.add_assoc]

theorem past_inert (hf : n.formed = true) (h : n.kind.isInert = true) : sp.past n = sp := by
  obtain ⟨hpast, hscopes⟩ := Lexical.past_inert sp.env sp.above n.bare (by rw [Node.formed_bare, hf])
    (by rw [Node.kind_bare, Kind.isInert_bare, h])
  simp [past, hpast, hscopes]

theorem pastAll_inert (hf : Node.formedAll ns = true) (h : ∀ n ∈ ns, n.kind.isInert = true) : sp.pastAll ns = sp := by
  induction ns with
  | nil => rfl
  | cons n ns ih =>
    obtain ⟨hn, hns⟩ := Bool.and_eq_true_iff.1 hf
    rw [pastAll_cons, past_inert hn (h n List.mem_cons_self)]
    exact ih hns fun m hm => h m (List.mem_cons_of_mem n hm)

theorem past_congr {n' : Node} (h : n'.bare = n.bare) : sp.past n' = sp.past n := by simp only [past, h]

theorem into_congr {kind' : Kind} (h : kind'.bare = kind.bare) (id : Nat) : sp.into id kind' = sp.into id kind := by
  simp only [into, h]

end

end Spot

mutual

/-- A condition on all nodes of a tree and their places, but not on those below what is inert or a parameter. -/
def Throughout (P : Spot → Node → Prop) (sp : Spot) : Node → Prop
  | .mk id kind o cs =>
    P sp (.mk id kind o cs) ∧ ((kind.isInert || kind.isParameter) = false → ThroughoutAll P (sp.into id kind) cs)

def ThroughoutAll (P : Spot → Node → Prop) (sp : Spot) : List Node → Prop
  | [] => True
  | n :: ns => Throughout P sp n ∧ ThroughoutAll P (sp.past n) ns

end

end Lexical

end MiniC
