import Mathlib
import MiniC.CType

/-!
# The order of the elements of an array

The elements of an array with dimensions `ns` follow one another so that the last index runs fastest: the one
with the indices `vs` has the number `rowMajor ns vs`. The numbers of the elements are those below the product
of the dimensions, each once. The product is the size of a type with these dimensions.
-/

namespace MiniC

/-- The number of the element with some indices. -/
def rowMajor : List Nat → List Int → Int
  | _ :: ns, v :: vs => v * (ns.prod : Nat) + rowMajor ns vs
  | _, _ => 0

/-- Each index is one of its dimension. -/
def InRange (ns : List Nat) (vs : List Int) : Prop := List.Forall₂ (fun (n : Nat) (v : Int) => 0 ≤ v ∧ v < n) ns vs

section

variable {n : Nat} {ns : List Nat} {v : Int} {vs us : List Int}

theorem inRange_cons : InRange (n :: ns) (v :: vs) ↔ (0 ≤ v ∧ v < n) ∧ InRange ns vs := List.forall₂_cons

theorem rowMajor_nonneg (h : InRange ns vs) : 0 ≤ rowMajor ns vs := by
  induction h with
  | nil => exact Int.le_refl 0
  | cons hv _ ih => exact Int.add_nonneg (Int.mul_nonneg hv.1 (Int.natCast_nonneg _)) ih

/-- A row before the last one ends before the last one ends. -/
theorem succ_mul_le (hv : v < n) (p : Nat) : v * p + p ≤ (n * p : Nat) := by
  have hrows : (v + 1) * (p : Int) ≤ n * p := Int.mul_le_mul_of_nonneg_right hv (Int.natCast_nonneg p)
  rw [Int.add_mul, Int.one_mul] at hrows
  rwa [Int.natCast_mul]

theorem rowMajor_lt (h : InRange ns vs) : rowMajor ns vs < (ns.prod : Nat) := by
  induction h with
  | nil => decide
  | @cons n v ns vs hv _ ih =>
    have hrow := succ_mul_le hv.2 ns.prod
    rw [rowMajor, List.prod_cons]
    omega

theorem prod_pos (h : InRange ns vs) : 0 < ns.prod := by
  have := rowMajor_nonneg h
  have := rowMajor_lt h
  omega

/-- The first index and the place in its row are the quotient and the rest by the length of a row. -/
theorem rowMajor_cons_split (h : InRange ns vs) :
    rowMajor (n :: ns) (v :: vs) / (ns.prod : Nat) = v ∧ rowMajor (n :: ns) (v :: vs) % (ns.prod : Nat) = rowMajor ns vs := by
  have hpos : (0 : Int) < (ns.prod : Nat) := Int.natCast_pos.2 (prod_pos h)
  refine (Int.ediv_emod_unique hpos).2 ⟨?_, rowMajor_nonneg h, rowMajor_lt h⟩
  rw [rowMajor, Int.mul_comm v]
  omega

theorem rowMajor_injOn (ns : List Nat) : Set.InjOn (rowMajor ns) {vs | InRange ns vs} := by
  intro vs hvs us hus heq
  induction ns generalizing vs us with
  | nil =>
    cases hvs
    cases hus
    rfl
  | cons n ns ih =>
    rcases hvs with _ | ⟨hv, hvs⟩
    rcases hus with _ | ⟨hu, hus⟩
    obtain ⟨hdiv, hmod⟩ := rowMajor_cons_split (n := n) hvs
    obtain ⟨hdiv', hmod'⟩ := rowMajor_cons_split (n := n) hus
    rw [heq] at hdiv hmod
    rw [hdiv.symm.trans hdiv', ih hvs hus (hmod.symm.trans hmod')]

/-- Every number below the product of the dimensions is that of an element. -/
theorem exists_rowMajor (ns : List Nat) {m : Int} (hm : 0 ≤ m) (hlt : m < (ns.prod : Nat)) :
    ∃ vs, InRange ns vs ∧ rowMajor ns vs = m := by
  induction ns generalizing m with
  | nil =>
    have hone : m < 1 := hlt
    exact ⟨[], .nil, show (0 : Int) = m by omega⟩
  | cons n ns ih =>
    rw [List.prod_cons, Int.natCast_mul] at hlt
    have hpos : (0 : Int) < (ns.prod : Nat) := by
      rcases Nat.eq_zero_or_pos ns.prod with hzero | hpos
      · rw [hzero] at hlt
        omega
      · omega
    obtain ⟨vs, hvs, heq⟩ := ih (Int.emod_nonneg m (by omega)) (Int.emod_lt_of_pos m hpos)
    refine ⟨m / (ns.prod : Nat) :: vs, inRange_cons.2 ⟨⟨Int.ediv_nonneg hm (by omega), ?_⟩, hvs⟩, ?_⟩
    · exact Int.ediv_lt_of_lt_mul hpos hlt
    · rw [rowMajor, heq]
      exact Int.ediv_mul_add_emod m _

/-- The elements of an array are at its cells, one at each. -/
theorem rowMajor_bijOn (ns : List Nat) (a : Int) :
    Set.BijOn (fun vs => a + rowMajor ns vs) {vs | InRange ns vs} (Set.Ico a (a + (ns.prod : Nat))) := by
  refine ⟨fun vs hvs => ?_, fun vs hvs us hus heq => ?_, fun b hb => ?_⟩
  · have := rowMajor_nonneg hvs
    have := rowMajor_lt hvs
    show a ≤ a + rowMajor ns vs ∧ a + rowMajor ns vs < a + (ns.prod : Nat)
    omega
  · exact rowMajor_injOn ns hvs hus (Int.add_left_cancel heq)
  · obtain ⟨hle, hlt⟩ := hb
    obtain ⟨vs, hvs, heq⟩ := exists_rowMajor ns (m := b - a) (by omega) (by omega)
    exact ⟨vs, hvs, show a + rowMajor ns vs = b by omega⟩

end

/-! ## Dimensions of types -/

namespace CType

variable {t : CType} {d : Extent} {ds : List Extent} {ns : List Nat} {n : Nat}

/-- An array of known dimensions, the outermost first; its elements are no arrays. -/
def HasDimensions (t : CType) (ns : List Nat) : Prop := t.dimensions? = some (ns.map fun n : Nat => .length n)

theorem extents_pointee (t : CType) : t.pointee.extents.reverse = t.extents.reverse.tail := by
  rw [extents, extents, pointee, List.map_dropLast, List.tail_reverse]

/-- The outermost dimension is that of the outermost layer, and the others are those of the elements. -/
theorem dimensions?_cons (h : t.dimensions? = some (d :: ds)) :
    d.isArray = true ∧ t.extents.reverse.head? = some d ∧ t.pointee.dimensions? = some ds := by
  unfold dimensions? at h ⊢
  rw [extents_pointee]
  rcases hout : t.extents.reverse with _ | ⟨e, es⟩
  · simp [hout] at h
  · rw [hout] at h
    dsimp only at h ⊢
    rw [List.takeWhile_cons] at h
    by_cases he : e.isArray = true
    · rw [if_pos he] at h
      split at h
      next hlt =>
        obtain ⟨rfl, rfl⟩ := List.cons.inj (Option.some.inj h)
        have hlt' : (es.takeWhile Extent.isArray).length < es.length := by simpa using hlt
        exact ⟨he, rfl, by rw [List.tail_cons, if_pos hlt']⟩
      next => cases h
    · rw [if_neg he] at h
      split at h <;> cases h

theorem outermost_of_head (h : t.extents.reverse.head? = some d) : ∃ layer, t.outermost = .ok layer ∧ layer.extent = d := by
  have hlast : t.layers.getLast?.map (·.extent) = some d := by
    rw [← h, List.head?_reverse, extents, List.getLast?_map]
  obtain ⟨layer, hlayer, rfl⟩ := Option.map_eq_some_iff.1 hlast
  exact ⟨layer, by rw [outermost, hlayer]; rfl, rfl⟩

theorem isArray_of_dimensions (h : t.dimensions? = some (d :: ds)) : t.isArray = .ok true := by
  obtain ⟨hd, hhead, -⟩ := dimensions?_cons h
  obtain ⟨layer, hlayer, rfl⟩ := outermost_of_head hhead
  rw [isArray, hlayer, Except.map, hd]

theorem isPointer_of_dimensions (h : t.dimensions? = some (d :: ds)) : t.isPointer = .ok false := by
  obtain ⟨hd, hhead, -⟩ := dimensions?_cons h
  obtain ⟨layer, hlayer, rfl⟩ := outermost_of_head hhead
  unfold isPointer
  split
  · rfl
  · rw [hlayer, Except.map, hd]
    rfl

theorem HasDimensions.pointee (h : t.HasDimensions (n :: ns)) : t.pointee.HasDimensions ns := (dimensions?_cons h).2.2

theorem foldl_number (ns : List Nat) (m : Int) :
    (ns.map fun n : Nat => Extent.length n).foldl (fun n d => n * d.number) m = m * (ns.prod : Nat) := by
  induction ns generalizing m with
  | nil => simp
  | cons n ns ih => rw [List.map_cons, List.foldl_cons, ih, List.prod_cons, Int.natCast_mul, Int.mul_assoc]; rfl

theorem HasDimensions.size (h : t.HasDimensions ns) : t.size = .ok (ns.prod : Nat) := by
  have hsize : t.size? = some ((ns.prod : Nat) : Int) := by
    rw [size?, h, Option.map_some, foldl_number, Int.one_mul]
  rw [CType.size, hsize]
  rfl

end CType

end MiniC
