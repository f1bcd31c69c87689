import MiniC.Proofs.Machine.Run

/-!
# Runs that stop

A run that reaches the halting instruction does not end in an error; `run?` looks for it within a number of steps.
`Fails code k c` says that every state that is shown by `c` at instruction `k` runs into an error.
-/

namespace MiniC.Machine

variable {code ls : List Line} {k k1 : Nat} {c c1 : Config} {s s' t : State} {i : Instr}

theorem steps_or_steps (h : Steps code s t) (h' : Steps code s s') : Steps code t s' ∨ Steps code s' t :=
  Relation.ReflTransGen.total_of_right_unique (fun _ _ _ hb hb' => Outcome.next.inj (hb.symm.trans hb')) h h'

theorem not_faults_of_halts (h : Halts code s s') : ¬ Faults code s := by
  rintro ⟨u, hu, hfault⟩
  obtain ⟨t, ht, hhalt⟩ := h
  -- The state that stops first has no step to the other.
  rcases steps_or_steps ht hu with hsteps | hsteps
  · rcases hsteps.cases_head with rfl | ⟨_, hnext, -⟩
    · rw [hhalt] at hfault
      cases hfault
    · rw [hhalt] at hnext
      cases hnext
  · rcases hsteps.cases_head with rfl | ⟨_, hnext, -⟩
    · rw [hfault] at hhalt
      cases hhalt
    · rw [hfault] at hnext
      cases hnext

/-- The halting instruction behind a run ends it. -/
theorem halts_of_steps (h : Steps code s t) (hat : At code t.pc (.instr .hlt :: ls)) : Halts code s t :=
  ⟨t, h, by rw [step, hat.fetch]⟩

/-- The state in which the machine halts, if it does so within some steps. -/
def run? (code : List Line) : Nat → State → Option State
  | 0, _ => none
  | fuel + 1, s =>
    match step code s with
    | .next s' => run? code fuel s'
    | .halt s' => some s'
    | .fault => none

theorem halts_of_run? {fuel : Nat} (h : run? code fuel s = some s') : Halts code s s' := by
  induction fuel generalizing s with
  | zero => cases h
  | succ fuel ih =>
    rw [run?] at h
    split at h
    next t hstep =>
      obtain ⟨u, hsteps, hhalt⟩ := ih h
      exact ⟨u, .head hstep hsteps, hhalt⟩
    next t hstep =>
      cases h
      exact ⟨s, .refl, hstep⟩
    next => cases h

/-- Every state that a description shows at an instruction runs into an error. -/
def Fails (code : List Line) (k : Nat) (c : Config) : Prop := ∀ s, s.pc = k → c.Shows s → Faults code s

theorem Reach.fails (h : Reach code k c k1 c1) (h' : Fails code k1 c1) : Fails code k c := by
  intro s hk hs
  obtain ⟨t, ht, hk', hs'⟩ := h s hk hs
  obtain ⟨u, hu, hfault⟩ := h' t hk' hs'
  exact ⟨u, ht.trans hu, hfault⟩

/-- A division by zero. -/
theorem fails_div {a : Int} {ws : List Word} (h : At code k (.instr (.arith .div .int) :: ls))
    (hw : c.stack = .int 0 :: .int a :: ws) : Fails code k c := by
  intro s hk hs
  refine ⟨s, .refl, ?_⟩
  rw [step, hk, h.fetch]
  simp [execute, hs.top hw, hs.second hw, Outcome.ofOption]

end MiniC.Machine
