import MiniC.Proofs.Pass.Trees

/-!
# The nodes of a tree

`Node.parts` lists the nodes of a tree, the root first. Filling in and the check of types keep every node: the second
tree has a node with the same number, and of the same kind but for what is filled in.
-/

namespace MiniC

namespace Node

mutual

/-- The nodes of a tree, the root first. -/
def parts : Node → List Node
  | .mk id kind o cs => .mk id kind o cs :: partsAll cs

def partsAll : List Node → List Node
  | [] => []
  | c :: cs => parts c ++ partsAll cs

end

variable {n n' m : Node} {ns : List Node}

theorem parts_eq (n : Node) : n.parts = n :: partsAll n.children := by
  cases n
  rfl

theorem mem_partsAll : m ∈ partsAll ns ↔ ∃ n ∈ ns, m ∈ n.parts := by
  induction ns with
  | nil => simp [partsAll]
  | cons n ns ih => simp [partsAll, ih]

theorem mem_parts : m ∈ n.parts ↔ m = n ∨ ∃ c ∈ n.children, m ∈ c.parts := by
  rw [parts_eq, List.mem_cons, mem_partsAll]

theorem mem_parts_self (n : Node) : n ∈ n.parts := mem_parts.2 (.inl rfl)

theorem idsAll_append (ns ns' : List Node) : idsAll (ns ++ ns') = idsAll ns ++ idsAll ns' := by
  induction ns with
  | nil => rfl
  | cons n ns ih => rw [List.cons_append, idsAll, idsAll, ih, List.append_assoc]

mutual

theorem map_id_parts (n : Node) : n.parts.map Node.id = n.ids := by
  match n with
  | .mk id kind o cs => rw [parts, ids, List.map_cons, map_id_partsAll cs, Node.id]

theorem map_id_partsAll (ns : List Node) : (partsAll ns).map Node.id = idsAll ns := by
  match ns with
  | [] => rfl
  | n :: ns => rw [partsAll, idsAll, List.map_append, map_id_parts n, map_id_partsAll ns]

end

theorem mem_parts_of_child {c : Node} (hc : c ∈ n.children) (h : m ∈ c.parts) : m ∈ n.parts :=
  mem_parts.2 (.inr ⟨c, hc, h⟩)

mutual

theorem formed_of_mem_parts (n : Node) {m : Node} (hf : n.formed = true) (h : m ∈ n.parts) : m.formed = true := by
  match n with
  | .mk id kind o cs =>
    obtain rfl | h := List.mem_cons.1 h
    · exact hf
    · rw [formed, Bool.and_eq_true] at hf
      exact formed_of_mem_partsAll cs hf.2 h

theorem formed_of_mem_partsAll (ns : List Node) {m : Node} (hf : formedAll ns = true) (h : m ∈ partsAll ns) :
    m.formed = true := by
  match ns with
  | [] => cases h
  | n :: ns =>
    rw [formedAll, Bool.and_eq_true] at hf
    obtain h | h := List.mem_append.1 h
    · exact formed_of_mem_parts n hf.1 h
    · exact formed_of_mem_partsAll ns hf.2 h

end

/-! ## Counterparts -/

mutual

theorem parts_bare (n : Node) : n.bare.parts = n.parts.map bare := by
  match n with
  | .mk id kind o cs => rw [bare, parts, parts, List.map_cons, bare, partsAll_bare cs]

theorem partsAll_bare (ns : List Node) : partsAll (bareAll ns) = (partsAll ns).map bare := by
  match ns with
  | [] => rfl
  | n :: ns => rw [bareAll, partsAll, partsAll, List.map_append, parts_bare n, partsAll_bare ns]

end

/-- Where one tree is the other with something filled in, so are their nodes. -/
theorem exists_part_of_like (h : n'.bare = n.bare) (hm : m ∈ n.parts) : ∃ m' ∈ n'.parts, m'.bare = m.bare := by
  have hmem : m.bare ∈ n'.parts.map bare := by
    rw [← parts_bare, h, parts_bare]
    exact List.mem_map_of_mem hm
  exact List.mem_map.1 hmem

theorem id_bare (n : Node) : n.bare.id = n.id := by
  cases n
  rfl

end Node

open Node (partsAll mem_partsAll)

/-- The check of types keeps every node and its kind, but for the pieces of formats. -/
theorem Follows.exists_part {b : Bool} {ns ns' : List Node} {m : Node} (h : Follows b ns ns') (hm : m ∈ partsAll ns) :
    ∃ m' ∈ partsAll ns', m'.id = m.id ∧ m.kind.Refines m'.kind := by
  induction h with
  | nil => cases hm
  | @node b id kind kind' o cs cs' ns ns' hkind _ _ ihcs ihns =>
    obtain hm | hm := List.mem_append.1 hm
    · obtain rfl | hm := List.mem_cons.1 hm
      · exact ⟨.mk id kind' o cs', List.mem_append_left _ (Node.mem_parts_self _), rfl, hkind⟩
      · obtain ⟨m', hm', hsame⟩ := ihcs hm
        exact ⟨m', List.mem_append_left _ (List.mem_cons_of_mem _ hm'), hsame⟩
    · obtain ⟨m', hm', hsame⟩ := ihns hm
      exact ⟨m', List.mem_append_right _ hm', hsame⟩
  | @wrapped i o n ns ns' _ ih =>
    refine ih ?_
    obtain hm | hm := List.mem_append.1 hm
    · exact List.mem_append_left _ (List.mem_cons_of_mem _ (List.mem_append_left _ hm))
    · exact List.mem_append_right _ hm

end MiniC
