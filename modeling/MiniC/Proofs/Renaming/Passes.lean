import MiniC.Proofs.Renaming.Table
import MiniC.Proofs.Renaming.Tree

/-!
# Passes under other names

Two states of a pass are alike if they are the same up to the names of variables. Messages are alike in place and number,
not in their text. `Mirrors` follows every run of a pass. But an error can be found in one tree and not in the other, where
a variable has the name of a function; `Echoes` follows only the runs that end well, for instance without an error.
-/

namespace MiniC

open Pass

open Node (Renamed RenamedAll)

/-- The same state of a pass under other names. -/
structure PassState.Alike (r : Renaming) (s s' : PassState) : Prop where
  table : s.table.Alike r s'.table
  marks : s'.marks = s.marks
  operands : s'.operands = s.operands
  errors : s'.errors = s.errors
  nextId : s'.nextId = s.nextId

/-- A pass does the same under other names. -/
abbrev Repeats (r : Renaming) {α β : Type} : (α → β → Prop) → PassM α → PassM β → Prop := Mirrors (PassState.Alike r)

variable {r : Renaming} {α β γ δ : Type} {A : α → β → Prop} {B : γ → δ → Prop}

/-! ## Messages -/

section

variable {n n' : Node} {above above' ns ns' : List Node}

theorem PassState.Alike.withTable {s s' : PassState} (h : s.Alike r s') {t t' : SymbolTable} (ht : t.Alike r t') :
    PassState.Alike r { s with table := t } { s' with table := t' } :=
  ⟨ht, h.marks, h.operands, h.errors, h.nextId⟩

theorem mirrors_onTable {op : TableM α} {op' : TableM β} (h : Mirrors (SymbolTable.Alike r) A op op') :
    Repeats r A (onTable op) (onTable op') := by
  intro s s' a u hs hr
  obtain ⟨t, ht, rfl⟩ := runs_onTable.1 hr
  obtain ⟨b, t', ht', hab, halike⟩ := h _ _ _ _ hs.table ht
  exact ⟨b, _, runs_onTable.2 ⟨t', ht', rfl⟩, hab, hs.withTable halike⟩

theorem mirrors_lift {e e' : Except Fault α} (he : e' = e) : Repeats r Eq (lift e) (lift e') :=
  .mk fun a ha => ⟨a, he.trans ha, rfl⟩

theorem mirrors_modifyTable {g : SymbolTable → SymbolTable} (h : ∀ t t', t.Alike r t' → (g t).Alike r (g t')) :
    Repeats r Eq (modify fun s => { s with table := g s.table } : PassM Unit)
      (modify fun s => { s with table := g s.table }) :=
  .modify fun _ _ hs => hs.withTable (h _ _ hs.table)

theorem mirrors_isMarked (hn : Renamed r.map n n') : Repeats r Eq (isMarked n) (isMarked n') :=
  .bind .get fun _ _ hs => .pure (by rw [hs.marks, hn.id_eq])

theorem mirrors_anyMarked (hns : RenamedAll r.map ns ns') :
    Repeats r Eq (anyMarked ns) (anyMarked ns') := by
  refine .bind .get fun s s' hs => .pure ?_
  rw [hs.marks]
  induction hns with
  | nil => rfl
  | cons hn _ ih => rw [List.any_cons, List.any_cons, hn.id_eq, ih]

theorem mirrors_mark (id : Nat) : Repeats r Eq (mark id) (mark id) :=
  .modify fun _ _ hs => ⟨hs.table, congrArg (id :: ·) hs.marks, hs.operands, hs.errors, hs.nextId⟩

theorem mirrors_pointAt (hn : Renamed r.map n n') (operand : Nat) :
    Repeats r Eq (pointAt n operand) (pointAt n' operand) :=
  .modify fun _ _ hs => ⟨hs.table, hs.marks, by rw [hn.id_eq, hs.operands], hs.errors, hs.nextId⟩

theorem mirrors_report {d d' : Diagnostic} (h : d'.isWarning = d.isWarning) :
    Repeats r Eq (report d) (report d') := by
  refine .modify fun s s' hs => ⟨hs.table, hs.marks, hs.operands, ?_, hs.nextId⟩
  have herrors := hs.errors
  simp only [PassState.errors, Diagnostic.errorCount, Array.toList_push, List.countP_append, List.countP_singleton, h] at herrors ⊢
  rw [herrors]

theorem mirrors_placeOf (hn : Renamed r.map n n') :
    Repeats r (fun _ _ => True) (placeOf n) (placeOf n') := by
  refine .bind .get fun s s' hs => .mk fun p hp => ?_
  rw [hn.id_eq, hs.operands]
  obtain ⟨p', hp'⟩ := hn.position hp
  exact ⟨p', hp', trivial⟩

theorem mirrors_warning (hn : Renamed r.map n n') (message message' : String) :
    Repeats r Eq (warning n message) (warning n' message') := by
  refine .bind (mirrors_placeOf hn) fun _ _ _ => .andThen (.modify fun s s' hs => ?_) fun _ => mirrors_report rfl
  exact ⟨hs.table, by rw [hs.marks, hn.id_eq], hs.operands, hs.errors, hs.nextId⟩

theorem baseExpression_renamed (hn : Renamed r.map n n') (habove : RenamedAll r.map above above') :
    (baseExpression n' above').1.id = (baseExpression n above).1.id ∧
      RenamedAll r.map (baseExpression n above).2 (baseExpression n' above').2 := by
  induction habove generalizing n n' with
  | nil => exact ⟨hn.id_eq, .nil⟩
  | cons hparent hrest ih =>
    simp only [baseExpression, hparent.kind_eq, Kind.isExpression_rename]
    split
    · exact ih hparent
    · exact ⟨hn.id_eq, .cons hparent hrest⟩

theorem blamed_renamed (hn : Renamed r.map n n') (habove : RenamedAll r.map above above') :
    blamed n' above' = blamed n above := by
  obtain ⟨hid, hrest⟩ := baseExpression_renamed hn habove
  simp only [blamed, hn.kind_eq, hn.id_eq, Kind.isExpression_rename, hid]
  generalize (baseExpression n above).2 = as at hrest ⊢
  generalize (baseExpression n' above').2 = as' at hrest ⊢
  cases hrest with
  | nil => rfl
  | cons hparent hrest =>
    simp only [hparent.kind_eq, hparent.id_eq, Kind.isInitializerList_rename, Kind.isStatement_rename]
    cases hrest with
    | nil => rfl
    | cons hnext _ => simp only [List.head?_cons, Option.map_some, hnext.id_eq]

theorem mirrors_error (hn : Renamed r.map n n') (habove : RenamedAll r.map above above') (message message' : String) :
    Repeats r Eq (error n above message) (error n' above' message') := by
  refine .bind (mirrors_placeOf hn) fun _ _ _ => .andThen ?_ fun _ => mirrors_report rfl
  rw [blamed_renamed hn habove]
  exact .forIn (List.forall₂_same.2 fun _ _ => rfl) fun id _ heq => heq ▸ .andThen (mirrors_mark id) fun _ => .pure rfl

end

/-! ## Runs that end well -/

/-- What is true afterwards was true before. -/
def Back (F : PassState → Prop) (s s' : PassState) : Prop := F s' → F s

instance (F : PassState → Prop) : IsPreorder PassState (Back F) where
  refl _ := id
  trans _ _ _ h h' := h ∘ h'

def PassState.ErrorFree (s : PassState) : Prop := s.errors = 0

@[grind ←] theorem Moves.errorFree {m : PassM α} (h : Moves Onward m) : Moves (Back PassState.ErrorFree) m :=
  fun s hafter => Nat.le_zero.1 (hafter ▸ (h s).errors_le)

/-- Every run of the first pass that ends well has a run of the second beside it. -/
def Echoes (r : Renaming) (F : PassState → Prop) (A : α → β → Prop) (m : PassM α) (m' : PassM β) : Prop :=
  ∀ s s' a t, s.Alike r s' → Runs m s a t → F t → ∃ b t', Runs m' s' b t' ∧ A a b ∧ t.Alike r t'

section

variable {F : PassState → Prop} {m : PassM α} {m' : PassM β} {f : α → PassM γ} {f' : β → PassM δ}

theorem Mirrors.echoes (h : Repeats r A m m') : Echoes r F A m m' :=
  fun s s' a t hs hr _ => h s s' a t hs hr

theorem Echoes.pure {a : α} {b : β} (h : A a b) : Echoes r F A (pure a) (pure b) := (Mirrors.pure h).echoes

theorem Echoes.throw (e : Fault) {n' : PassM δ} : Echoes r F B (throw e >>= f) n' := fun _ _ _ _ _ hr => by
  obtain ⟨_, _, hthrow, -⟩ := runs_bind.1 hr
  exact (runs_throw.1 hthrow).elim

theorem Echoes.bind (hf : ∀ a, Moves (Back F) (f a)) (h : Echoes r F A m m') (h' : ∀ a b, A a b → Echoes r F B (f a) (f' b)) :
    Echoes r F B (m >>= f) (m' >>= f') := by
  intro s s' c t hs hr hend
  obtain ⟨a, s1, hm, hrest⟩ := runs_bind.1 hr
  obtain ⟨b, s1', hm', hab, hs1⟩ := h s s' a s1 hs hm ((hf a).runs hrest hend)
  obtain ⟨d, t', hrest', hcd, ht⟩ := h' a b hab s1 s1' c t hs1 hrest hend
  exact ⟨d, t', runs_bind.2 ⟨b, s1', hm', hrest'⟩, hcd, ht⟩

/-- A part that is mirrored however it ends. -/
theorem Echoes.after (h : Repeats r A m m') (h' : ∀ a b, A a b → Echoes r F B (f a) (f' b)) :
    Echoes r F B (m >>= f) (m' >>= f') := by
  intro s s' c t hs hr hend
  obtain ⟨a, s1, hm, hrest⟩ := runs_bind.1 hr
  obtain ⟨b, s1', hm', hab, hs1⟩ := h s s' a s1 hs hm
  obtain ⟨d, t', hrest', hcd, ht⟩ := h' a b hab s1 s1' c t hs1 hrest hend
  exact ⟨d, t', runs_bind.2 ⟨b, s1', hm', hrest'⟩, hcd, ht⟩

theorem Echoes.andThen {m' : PassM α} {f' : α → PassM δ} (h : Repeats r Eq m m')
    (h' : ∀ a, Echoes r F B (f a) (f' a)) : Echoes r F B (m >>= f) (m' >>= f') := .after h fun a _ hab => hab ▸ h' a

theorem Echoes.ite {c c' : Prop} [Decidable c] [Decidable c'] {k : PassM α} {k' : PassM β} (hc : c' ↔ c)
    (h : c → Echoes r F A m m') (h' : ¬ c → Echoes r F A k k') :
    Echoes r F A (if c then m else k) (if c' then m' else k') := rel_ite hc h h'

/-- A part that is done only under a condition. -/
theorem Echoes.when {c c' : Prop} [Decidable c] [Decidable c'] {m m' : PassM PUnit} {k : PUnit → PassM α} {k' : PUnit → PassM β}
    (hc : c' ↔ c) (h : c → Repeats r Eq m m') (h' : ∀ u, Echoes r F A (k u) (k' u)) :
    Echoes r F A (if c then m >>= k else k ()) (if c' then m' >>= k' else k' ()) :=
  .ite hc (fun hcond => .andThen (h hcond) h') fun _ => h' ()

theorem not_errorFree_of_error {n : Node} {above : List Node} {message : String} {k : Unit → PassM α} {s t : PassState} {a : α}
    (hk : ∀ u, Moves Onward (k u)) (hr : Runs (error n above message >>= k) s a t) : ¬ t.ErrorFree := by
  intro hend
  obtain ⟨_, s1, herror, hrest⟩ := runs_bind.1 hr
  have hle := ((hk ()).runs hrest).errors_le
  rw [show t.errors = 0 from hend] at hle
  rw [Runs, outcome_error] at herror
  split at herror
  · obtain rfl := (Prod.mk.inj herror).2
    simp [PassState.errors, Diagnostic.errorCount, Diagnostic.error] at hle
  · cases (Prod.mk.inj herror).1

theorem Echoes.children {n n' : Node} {ms ms' : PassM (List Node)} (hn : Renamed r.map n n')
    (h : Echoes r F (RenamedAll r.map) ms ms') : Echoes r F (Renamed r.map) (do
      let children ← ms
      return n.withChildren children) (do
      let children ← ms'
      return n'.withChildren children) :=
  .bind (fun _ => .pure _) h fun _ _ hds => .pure (hn.withChildren hds)

/-- The children of a node are visited, under a condition in a scope of their own. -/
theorem Echoes.scoped {n n' : Node} {ms ms' : PassM (List Node)} (c c' : Prop) [Decidable c] [Decidable c'] (hc : c' ↔ c)
    (isFunction : Bool) (name : Option String) (hclose : Moves (Back F) (onTable SymbolTable.closeScope))
    (hn : Renamed r.map n n') (h : Echoes r F (RenamedAll r.map) ms ms') : Echoes r F (Renamed r.map) (do
      if c then onTable (SymbolTable.openScope isFunction name)
      let children ← ms
      if c then onTable SymbolTable.closeScope
      return n.withChildren children) (do
      if c' then onTable (SymbolTable.openScope isFunction name)
      let children ← ms'
      if c' then onTable SymbolTable.closeScope
      return n'.withChildren children) := by
  refine .when hc (fun _ => mirrors_onTable (SymbolTable.mirrors_openScope isFunction name)) fun _ =>
    .bind (fun ds => ?_) h fun ds ds' hds => ?_
  · dsimp only
    split
    · exact .bind hclose fun _ => .pure _
    · exact .pure _
  · exact .when hc (fun _ => mirrors_onTable SymbolTable.mirrors_closeScope) fun _ => .pure (hn.withChildren hds)

end

end MiniC
