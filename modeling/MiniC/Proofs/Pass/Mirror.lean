import Mathlib.Data.List.Forall2
import MiniC.Proofs.Pass.Run

/-!
# Two runs side by side

`Mirrors R A m m'` relates two computations: from states that are related by `R`, whenever `m` gives a result, `m'` gives
one too; the results are then related by `A` and the states by `R` again. The rules follow the computations. Lists whose
elements are related are gone through in step.
-/

namespace MiniC

variable {σ α β γ δ : Type}

/-- Two choices go the same way. -/
theorem rel_ite {P : α → β → Prop} {c c' : Prop} [Decidable c] [Decidable c'] {a b : α} {a' b' : β} (hc : c' ↔ c)
    (h : c → P a a') (h' : ¬ c → P b b') : P (if c then a else b) (if c' then a' else b') := by
  by_cases hcond : c
  · rw [if_pos hcond, if_pos (hc.2 hcond)]
    exact h hcond
  · rw [if_neg hcond, if_neg fun hc' => hcond (hc.1 hc')]
    exact h' hcond

/-! ## Lists side by side -/

section

variable {P : α → β → Prop} {as : List α} {bs : List β} (h : List.Forall₂ P as bs)

include h

theorem rel_getElem? (i : Nat) : Option.Rel P as[i]? bs[i]? := by
  induction h generalizing i with
  | nil => exact .none
  | cons hab _ ih =>
    cases i with
    | zero => exact .some hab
    | succ i => exact ih i

theorem rel_getLast? : Option.Rel P as.getLast? bs.getLast? := by
  rw [← List.head?_reverse, ← List.head?_reverse, List.head?_eq_getElem?, List.head?_eq_getElem?]
  exact rel_getElem? (List.forall₂_reverse_iff.2 h) 0

variable {p : α → Bool} {p' : β → Bool} (hp : ∀ a b, P a b → p' b = p a)

include hp

theorem rel_find? : Option.Rel P (as.find? p) (bs.find? p') := by
  induction h with
  | nil => exact .none
  | cons hab _ ih =>
    rw [List.find?_cons, List.find?_cons, hp _ _ hab]
    split
    · exact .some hab
    · exact ih

theorem forall₂_filter : List.Forall₂ P (as.filter p) (bs.filter p') :=
  List.rel_filter (fun a b hab => by simp only [hp a b hab]) h

end

/-! ## Runs -/

/-- Every run of the first computation has one of the second beside it. -/
def Mirrors (R : σ → σ → Prop) (A : α → β → Prop) (m : ExceptT Fault (StateM σ) α) (m' : ExceptT Fault (StateM σ) β) : Prop :=
  ∀ s s' a t, R s s' → Runs m s a t → ∃ b t', Runs m' s' b t' ∧ A a b ∧ R t t'

section

variable {R : σ → σ → Prop} {A : α → β → Prop} {B : γ → δ → Prop} {m : ExceptT Fault (StateM σ) α}
  {m' : ExceptT Fault (StateM σ) β} {f : α → ExceptT Fault (StateM σ) γ} {f' : β → ExceptT Fault (StateM σ) δ}

theorem Mirrors.pure {a : α} {b : β} (h : A a b) : Mirrors R A (pure a) (pure b) := by
  intro s s' _ _ hs hr
  obtain ⟨rfl, rfl⟩ := runs_pure.1 hr
  exact ⟨b, s', runs_pure.2 ⟨rfl, rfl⟩, h, hs⟩

theorem Mirrors.throw (e : Fault) : Mirrors R A (throw e) m' := fun _ _ _ _ _ hr => (runs_throw.1 hr).elim

theorem Mirrors.bind (h : Mirrors R A m m') (h' : ∀ a b, A a b → Mirrors R B (f a) (f' b)) :
    Mirrors R B (m >>= f) (m' >>= f') := by
  intro s s' c t hs hr
  obtain ⟨a, s1, hm, hf⟩ := runs_bind.1 hr
  obtain ⟨b, s1', hm', hab, hs1⟩ := h s s' a s1 hs hm
  obtain ⟨d, t', hf', hcd, ht⟩ := h' a b hab s1 s1' c t hs1 hf
  exact ⟨d, t', runs_bind.2 ⟨b, s1', hm', hf'⟩, hcd, ht⟩

/-- Nothing follows a fault. -/
theorem Mirrors.throw_bind (e : Fault) {k : ExceptT Fault (StateM σ) δ} :
    Mirrors R B (MonadExcept.throw e >>= f) k := by
  intro s s' c t _ hr
  obtain ⟨_, _, hthrow, -⟩ := runs_bind.1 hr
  exact (runs_throw.1 hthrow).elim

/-- The first computations give the same. -/
theorem Mirrors.andThen {m' : ExceptT Fault (StateM σ) α} {f' : α → ExceptT Fault (StateM σ) δ} (h : Mirrors R Eq m m')
    (h' : ∀ a, Mirrors R B (f a) (f' a)) : Mirrors R B (m >>= f) (m' >>= f') := h.bind fun a _ hab => hab ▸ h' a

theorem Mirrors.get : Mirrors R R (get : ExceptT Fault (StateM σ) σ) get := by
  intro s s' _ _ hs hr
  obtain ⟨rfl, rfl⟩ := runs_get.1 hr
  exact ⟨s', s', runs_get.2 ⟨rfl, rfl⟩, hs, hs⟩

theorem Mirrors.set {x x' : σ} (h : R x x') : Mirrors R Eq (set x : ExceptT Fault (StateM σ) PUnit) (set x') := by
  intro s s' u t _ hr
  obtain rfl := runs_set.1 hr
  exact ⟨u, x', runs_set.2 rfl, rfl, h⟩

theorem Mirrors.modify {g g' : σ → σ} (h : ∀ s s', R s s' → R (g s) (g' s')) :
    Mirrors R Eq (modify g : ExceptT Fault (StateM σ) PUnit) (modify g') := by
  intro s s' u t hs hr
  obtain rfl := runs_modify.1 hr
  exact ⟨u, g' s', runs_modify.2 rfl, rfl, h s s' hs⟩

theorem Mirrors.ite {c c' : Prop} [Decidable c] [Decidable c'] {k : ExceptT Fault (StateM σ) α}
    {k' : ExceptT Fault (StateM σ) β} (hc : c' ↔ c) (h : c → Mirrors R A m m') (h' : ¬ c → Mirrors R A k k') :
    Mirrors R A (if c then m else k) (if c' then m' else k') := rel_ite hc h h'

/-- A part that is done only under a condition. -/
theorem Mirrors.when {c c' : Prop} [Decidable c] [Decidable c'] {m m' : ExceptT Fault (StateM σ) PUnit}
    {k : PUnit → ExceptT Fault (StateM σ) α} {k' : PUnit → ExceptT Fault (StateM σ) β} (hc : c' ↔ c)
    (h : c → Mirrors R Eq m m') (h' : ∀ u, Mirrors R A (k u) (k' u)) :
    Mirrors R A (if c then m >>= k else k ()) (if c' then m' >>= k' else k' ()) :=
  .ite hc (fun hcond => (h hcond).andThen h') fun _ => h' ()

theorem Mirrors.forIn {P : γ → δ → Prop} {as : List γ} {bs : List δ}
    {f : γ → PUnit → ExceptT Fault (StateM σ) (ForInStep PUnit)} {f' : δ → PUnit → ExceptT Fault (StateM σ) (ForInStep PUnit)}
    (has : List.Forall₂ P as bs) (h : ∀ a b, P a b → Mirrors R Eq (f a ⟨⟩) (f' b ⟨⟩)) :
    Mirrors R Eq (forIn as PUnit.unit f) (forIn bs PUnit.unit f') := by
  induction has with
  | nil => exact .pure rfl
  | cons ha _ ih =>
    rw [List.forIn_cons, List.forIn_cons]
    refine (h _ _ ha).andThen fun r => ?_
    cases r with
    | done u => exact .pure rfl
    | yield u => exact ih

theorem Mirrors.mk {e : Except Fault α} {e' : Except Fault β} (h : ∀ a, e = .ok a → ∃ b, e' = .ok b ∧ A a b) :
    Mirrors R A (ExceptT.mk (Pure.pure e)) (ExceptT.mk (Pure.pure e')) := by
  intro s s' a t hs hr
  obtain ⟨rfl, rfl⟩ := runs_mk.1 hr
  obtain ⟨b, rfl, hab⟩ := h a rfl
  exact ⟨b, s', runs_mk.2 ⟨rfl, rfl⟩, hab, hs⟩

/-- Both computations first work out the same. -/
theorem Mirrors.same {e e' : Except Fault α} {f' : α → ExceptT Fault (StateM σ) δ} (he : e' = e)
    (h : ∀ a, e = .ok a → Mirrors R B (f a) (f' a)) :
    Mirrors R B (ExceptT.mk (Pure.pure e) >>= f) (ExceptT.mk (Pure.pure e') >>= f') := by
  subst he
  refine .bind (A := fun a b => a = b ∧ e' = .ok a) (.mk fun a ha => ⟨a, ha, rfl, ha⟩) fun a _ hab => ?_
  obtain ⟨rfl, ha⟩ := hab
  exact h a ha

end

end MiniC
