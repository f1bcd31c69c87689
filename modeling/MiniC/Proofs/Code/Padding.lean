import MiniC.Proofs.Code.Strict
import MiniC.Proofs.Machine.Padding

/-!
# Padded output

For a number or a string, and a width in the format, the code of output writes as many blanks as the text is shorter than
the width, and then the text. What is said of the lines of the argument itself is only that they leave its value on the
stack.
-/

namespace MiniC

open Machine Emit

/-- The format check takes an argument of the type for the letter. -/
def Format.Accepts (letter : Char) (type : CType) : Prop :=
  ∃ expected given, typeOfCode? letter = some expected ∧ type.asValue = .ok given ∧ expected.agrees given = .ok true

section

variable {argument : EmitM Unit} {letter : Char} {width : Int} {ls value rest : List Line} {cell : Int}

variable {F : List Line → Prop} {f : Label → EmitM Unit} {m : EmitM Unit}

end

/-! ## Types of arguments -/

section

variable {t u : CType} {letter : Char} {width : Int}

theorem CType.agrees_eq_true : t.agrees u = .ok true ↔
    t.base = u.base ∧ t.depth = u.depth ∧ ∃ b, t.isArray = .ok b ∧ u.isArray = .ok b := by
  unfold agrees
  by_cases h : t.base = u.base ∧ t.depth = u.depth
  · rw [if_pos h]
    rcases ht : t.isArray with e | a <;> rcases hu : u.isArray with e' | b <;>
      simp [bind, Except.bind, pure, Except.pure, h]
    exact eq_comm
  · rw [if_neg h]
    simp only [pure, Except.pure, Except.ok.injEq, Bool.false_eq_true, false_iff]
    exact fun hall => h ⟨hall.1, hall.2.1⟩

theorem CType.agrees_eq_false (h : ¬ (t.base = u.base ∧ t.depth = u.depth)) : t.agrees u = .ok false := if_neg h

/-- The value of an object has the object's base type and number of layers. -/
theorem CType.asValue_shape (h : t.asValue = .ok u) : u.base = t.base ∧ u.depth = t.depth := by
  unfold asValue at h
  split at h
  · cases h
    exact ⟨rfl, rfl⟩
  · obtain ⟨layer, hlayer, h⟩ := except_bind_eq_ok.1 h
    cases h
    have hlast : t.layers.getLast? = some layer := by
      unfold outermost at hlayer
      split at hlayer <;> simp_all [pure, Except.pure, throw, throwThe, MonadExceptOf.throw]
    obtain ⟨layers, hlayers⟩ := List.getLast?_eq_some_iff.1 hlast
    simp [depth, hlayers]

/-- An argument for `d` or `i` is an integer. -/
theorem Format.Accepts.int (h : Accepts letter t) (hletter : letter = 'd' ∨ letter = 'i')
    (hbase : t.layers.head?.map (·.extent) = some .scalar) : t.agrees .int = .ok true := by
  obtain ⟨expected, given, hexpected, hgiven, hagrees⟩ := h
  obtain rfl : expected = .int := by
    rcases hletter with rfl | rfl <;> exact (Option.some.inj hexpected).symm
  obtain ⟨hb, hdepth, -⟩ := CType.agrees_eq_true.1 hagrees
  obtain ⟨hb', hdepth'⟩ := CType.asValue_shape hgiven
  have hlength : t.layers.length = 1 := by
    have : t.depth = 0 := by rw [← hdepth', ← hdepth]; rfl
    simp only [CType.depth, Int.ofNat_eq_natCast] at this
    omega
  obtain ⟨layer, hlayer⟩ := List.length_eq_one_iff.1 hlength
  simp only [hlayer, List.head?_cons, Option.map_some, Option.some.injEq] at hbase
  refine CType.agrees_eq_true.2 ⟨by rw [← hb', ← hb], by rw [← hdepth', ← hdepth], false, ?_, rfl⟩
  simp [CType.isArray, CType.outermost, hlayer, Extent.isArray, hbase, pure, Except.pure, Except.map]

/-- An argument for `s` is a string, and no number or character. -/
theorem Format.Accepts.string (h : Accepts 's' t) : t.agrees .int = .ok false ∧ t.agrees .char = .ok false ∧
    ∃ shown, t.asValue = .ok shown ∧ shown.agrees ⟨.char, true, [⟨.scalar, false⟩, ⟨.scalar, false⟩]⟩ = .ok true := by
  obtain ⟨expected, given, hexpected, hgiven, hagrees⟩ := h
  obtain rfl := Option.some.inj hexpected
  obtain ⟨hb, hdepth, a, ha, ha'⟩ := CType.agrees_eq_true.1 hagrees
  obtain ⟨hb', hdepth'⟩ := CType.asValue_shape hgiven
  refine ⟨CType.agrees_eq_false fun hint => ?_, CType.agrees_eq_false fun hchar => ?_, given, hgiven,
    CType.agrees_eq_true.2 ⟨hb.symm, hdepth.symm, a, ha', ha⟩⟩
  · rw [← hb', ← hb] at hint
    exact absurd hint.1 (by decide)
  · rw [← hdepth', ← hdepth] at hchar
    exact absurd hchar.2 (by decide)

end

section

variable {n : Node} {type : CType} {letter : Char} {setting : Setting} {digits : List Char}

end

end MiniC
