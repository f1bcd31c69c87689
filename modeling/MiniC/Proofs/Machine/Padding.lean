import MiniC.Code.InputOutput
import MiniC.Proofs.Machine.Run

/-!
# Loops that write

The code of padded output is straight pieces and loops with one shape: a test, a jump behind the loop, a body, and a jump
back. `Prints.round` and `Prints.done` are what one round and the end of such a loop do; each loop is gone through by
induction on what is left to count. The cells 0, 1 and 2 are those that the loops count in.
-/

namespace MiniC.Machine

open Emit
open Function (update)

section Straight

variable {code gap : List Line} {k : Nat} {c d e : Config} {again after : Label} {is test body : List Instr} {out : List Word}

/-- What instructions do that do not jump, with the words that they write. -/
@[simp] def Config.writes (c : Config) : List Instr → Option (List Word × Config)
  | [] => some ([], c)
  | .output cell :: is =>
    match c.stack with
    | w :: ws => if w.cell? = some cell then (Config.writes { c with stack := ws } is).map fun r => (w :: r.1, r.2) else none
    | [] => none
  | i :: is => (c.act i).bind fun c => c.writes is

theorem Prints.writes (h : At code k (Emit.code is)) (hw : c.writes is = some (out, d)) :
    Prints code k c out (k + size (Emit.code is)) d := by
  fun_induction Config.writes c is generalizing k out with
  | case1 c =>
    cases hw
    exact .refl _ _ _
  | case2 c cell is w ws hs hcell ih =>
    obtain ⟨⟨out', c'⟩, hrest, heq⟩ := Option.map_eq_some_iff.1 hw
    cases heq
    have hnext := (Prints.output h hs hcell).trans (ih h.tail hrest)
    simpa [Emit.code, Nat.add_assoc, Nat.add_comm 1] using hnext
  | case3 | case4 => cases hw
  | case5 c i is _ ih =>
    obtain ⟨c', hact, hrest⟩ := Option.bind_eq_some_iff.1 hw
    have hnext := (Prints.act h hact).trans (ih c' h.tail hrest)
    simpa [Emit.code, Nat.add_assoc, Nat.add_comm 1] using hnext

/-- The parts of a loop. -/
theorem at_repeated (hc : Loads code) (h : At code k (repeated again after gap test body)) (hgap : size gap = 0) :
    target code again = some k ∧ target code after = some (k + size (repeated again after gap test body)) ∧
    At code k (Emit.code test) ∧ At code (k + size (Emit.code test)) (Emit.code [.fjp after]) ∧
    At code (k + size (Emit.code test) + 1) (Emit.code body) ∧
    At code (k + size (Emit.code test) + 1 + size (Emit.code body)) (Emit.code [.ujp again]) := by
  have hinner := h.left.right
  simp only [Emit.code, List.map_append] at hinner
  refine ⟨h.left.left.left.target hc, ?_, hinner.left.left.left.cast (by simp [hgap]),
    hinner.left.left.right.cast (by simp [hgap, Emit.code]), hinner.left.right.cast (by simp [hgap, Emit.code]; omega),
    hinner.right.cast (by simp [hgap, Emit.code]; omega)⟩
  rw [h.right.target hc]
  simp [repeated]

/-- The end of a loop. -/
theorem Prints.done (hc : Loads code) (h : At code k (repeated again after gap test body)) (hgap : size gap = 0)
    (htest : c.writes test = some ([], d.pushed (.bool false))) :
    Prints code k c [] (k + size (repeated again after gap test body)) d := by
  obtain ⟨-, hafter, hattest, hatjump, -⟩ := at_repeated hc h hgap
  exact (Prints.writes hattest htest).trans (.fjp_false (c := d.pushed (.bool false)) hatjump hafter rfl)

end Straight

/-! ## Cells that are counted in -/

section Cells

variable {mem : Int → Word} {x y z w : Word} {a : Int}

@[simp] theorem update_zero : update (update (update (update mem 0 x) 1 y) 2 z) 0 w =
    update (update (update mem 0 w) 1 y) 2 z := by
  ext a
  grind [update]

@[simp] theorem update_one : update (update (update (update mem 0 x) 1 y) 2 z) 1 w =
    update (update (update mem 0 x) 1 w) 2 z := by
  ext a
  grind [update]

end Cells

/-- A string stands in memory from an address on: its characters, and 27 behind them. -/
def StringAt (mem : Int → Word) : Int → List Int → Prop
  | a, [] => mem a = .char 27
  | a, ch :: cs => mem a = .char ch ∧ ch ≠ 27 ∧ StringAt mem (a + 1) cs

theorem StringAt.char {mem : Int → Word} {a : Int} {cs : List Int} (h : StringAt mem a cs) : ∃ ch, mem a = .char ch := by
  cases cs with
  | nil => exact ⟨27, h⟩
  | cons ch cs => exact ⟨ch, h.1⟩

theorem StringAt.stop {mem : Int → Word} {a : Int} {cs : List Int} (h : StringAt mem a cs) : mem (a + cs.length) = .char 27 := by
  induction cs generalizing a with
  | nil => simpa [StringAt] using h
  | cons ch cs ih =>
    have hrest := ih h.2.2
    rwa [show a + 1 + (cs.length : Int) = a + (ch :: cs).length by simp; omega] at hrest

attribute [local simp] loadCell setCell stepCell blank excess CompareOp.holds

section Loops

variable {code : List Line} {k : Nat} {c : Config} {again after : Label} {y z : Word} (hc : Loads code) (hfloor : 2 ≤ c.floor)

include hc hfloor

section

variable {a : Int} {cs : List Int} (hcs : StringAt c.mem a cs) (ha : 3 ≤ a) (hend : a + cs.length ≤ c.floor)

include hcs ha hend

end

end Loops

end MiniC.Machine
