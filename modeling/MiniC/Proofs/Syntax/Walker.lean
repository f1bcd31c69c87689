import MiniC.Proofs.Syntax.Parts
import MiniC.Syntax.Build

/-!
# Walking with callbacks

`Builder.walk` remembers in its recursion what is to be done at the end of a rule. A `Walker` is only told that a rule
is entered or left, so it keeps this on a stack of its own, and it keeps the links of nodes to their parents. It does
what the builder does, and leaves its stack as it found it (`Walker.walk_eq`).
-/

namespace MiniC

/-- What the nodes below are linked to: the part of a header is no node. -/
def Open.id? : Open → Option Nat
  | node n => some n.id
  | part .. => none

structure Walker where
  builder : Builder := {}
  /-- What is to be done when the open rules are left, innermost first. -/
  pending : List Leave := []
  /-- The parents of nodes, by number. -/
  parents : Nat → Option Nat := fun _ => none

namespace Walker

/-- A node that is new is linked to what it is put below. -/
def enter (s : Walker) (t : ParseTree) : Except Fault Walker := do
  let (builder, atEnd) ← s.builder.enter (Form.ofTree t) t
  let parents := if builder.next = s.builder.next then s.parents
    else Function.update s.parents s.builder.next (s.builder.opened.head?.bind Open.id?)
  return { builder, pending := atEnd :: s.pending, parents }

/-- What a loop takes from a part of its header is linked to the loop. -/
def relink (s : Walker) : Leave → Nat → Option Nat
  | .closePart _ =>
    match s.builder.opened with
    | inner :: .node n :: _ => match inner.children[0]? with
      | some child => Function.update s.parents child.id (some n.id)
      | none => s.parents
    | _ => s.parents
  | _ => s.parents

def exit (s : Walker) : Except Fault Walker :=
  match s.pending with
  | [] => throw .missing
  | atEnd :: pending => do
    let builder ← s.builder.leave atEnd
    return { builder, pending, parents := s.relink atEnd }

mutual

def walk (s : Walker) : ParseTree → Except Fault Walker
  | .leaf _ _ => pure s
  | .node info children => do
    let s ← s.enter (.node info children)
    let s ← walkAll s children
    s.exit

def walkAll (s : Walker) : List ParseTree → Except Fault Walker
  | [] => pure s
  | t :: ts => do
    let s ← walk s t
    walkAll s ts

end

mutual

theorem walk_eq (s : Walker) (t : ParseTree) :
    ∃ parents, s.walk t = (s.builder.walk t).map fun builder => { s with builder, parents } := by
  match t with
  | .leaf token bad => exact ⟨s.parents, rfl⟩
  | .node info ts =>
    have hform : Form.ofTree (.node info ts) = Form.ofRule info.rule := rfl
    rw [walk, Builder.walk, enter, hform]
    cases s.builder.enter (Form.ofRule info.rule) (.node info ts) with
    | error fault => exact ⟨s.parents, rfl⟩
    | ok entered =>
      obtain ⟨builder, atEnd⟩ := entered
      let s' : Walker := ⟨builder, atEnd :: s.pending, if builder.next = s.builder.next then s.parents
        else Function.update s.parents s.builder.next (s.builder.opened.head?.bind Open.id?)⟩
      obtain ⟨parents, hwalk⟩ := walkAll_eq s' ts
      change s'.walkAll ts = (builder.walkAll ts).map _ at hwalk
      cases hb : builder.walkAll ts with
      | error fault =>
        refine ⟨s.parents, ?_⟩
        show (do let s ← s'.walkAll ts; s.exit) = (do let b ← builder.walkAll ts; b.leave atEnd).map _
        rw [hwalk, hb]
        rfl
      | ok builder' =>
        refine ⟨relink { s' with builder := builder', parents } atEnd, ?_⟩
        show (do let s ← s'.walkAll ts; s.exit) = (do let b ← builder.walkAll ts; b.leave atEnd).map _
        rw [hwalk, hb]
        show (do let builder ← builder'.leave atEnd; _) = (builder'.leave atEnd).map _
        cases builder'.leave atEnd <;> rfl

theorem walkAll_eq (s : Walker) (ts : List ParseTree) :
    ∃ parents, s.walkAll ts = (s.builder.walkAll ts).map fun builder => { s with builder, parents } := by
  match ts with
  | [] => exact ⟨s.parents, rfl⟩
  | t :: ts =>
    obtain ⟨parents, hwalk⟩ := walk_eq s t
    rw [walkAll, Builder.walkAll, hwalk]
    cases s.builder.walk t with
    | error fault => exact ⟨s.parents, rfl⟩
    | ok builder => exact walkAll_eq { s with builder, parents } ts

end

theorem walk_eq_ok {s s' : Walker} {t : ParseTree} (h : s.walk t = .ok s') : s.builder.walk t = .ok s'.builder := by
  obtain ⟨parents, hwalk⟩ := s.walk_eq t
  rw [h] at hwalk
  cases hb : s.builder.walk t with
  | error fault => simp [hb, Except.map] at hwalk
  | ok b => simp_all [Except.map]

end Walker

namespace Node

variable {n m c : Node} {parents parents' : Nat → Option Nat}

/-- In a tree, every link names the node that holds the other. -/
def Linked (parents : Nat → Option Nat) (n : Node) : Prop := ∀ m ∈ n.parts, ∀ c ∈ m.children, parents c.id = some m.id

theorem mem_parts_of_mem_children (n : Node) (hm : m ∈ n.parts) (hc : c ∈ m.children) : c ∈ n.parts := by
  induction n using Node.induct with
  | h id kind o cs ih =>
    obtain rfl | ⟨n, hn, hm⟩ := mem_parts.1 hm
    · exact mem_parts_of_child hc (mem_parts_self c)
    · exact mem_parts_of_child hn (ih n hn hm)

theorem linked_iff : n.Linked parents ↔ ∀ c ∈ n.children, parents c.id = some n.id ∧ c.Linked parents := by
  constructor
  · intro h c hc
    exact ⟨h n (mem_parts_self n) c hc, fun m hm => h m (mem_parts_of_child hc hm)⟩
  · intro h m hm
    obtain rfl | ⟨c, hc, hm⟩ := mem_parts.1 hm
    · exact fun c hc => (h c hc).1
    · exact (h c hc).2 m hm

/-- Only the links of the tree matter. -/
theorem Linked.mono (h : n.Linked parents)
    (hp : ∀ m ∈ n.parts, ∀ i, parents m.id = some i → parents' m.id = some i) : n.Linked parents' := by
  intro m hm c hc
  exact hp c (mem_parts_of_mem_children n hm hc) _ (h m hm c hc)

end Node

end MiniC
