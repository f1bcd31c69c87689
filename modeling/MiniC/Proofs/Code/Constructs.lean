import MiniC.Proofs.Code.Writes
import MiniC.Proofs.Renaming.Tree

/-!
# What the parts of code are made of

`Emittable` lists the instructions that code is made of, apart from jumps and calls. The constructs are gone through once,
for two code makers side by side: a `Comparison` says how their trees and their states are related, and what the first one
may add. `Tracks K A m m'` says that the second follows the first in this way. What the code of a tree meets is the case in
which both are the same. Constructs with labels of their own are left to those who look at labels.
-/

namespace MiniC

def Cell.isValue (cell : Cell) : Bool := cell != .bool

/-- What is loaded: numbers, the truth, the literals of the source, and the elements of arrays. -/
inductive Loadable : Cell → Constant → Prop
  | number {cell : Cell} (h : cell = .int ∨ cell = .address ∨ cell = .char) (n : Int) : Loadable cell (.number n)
  | truth : Loadable .bool .truth
  | places (x : Binary64) : Loadable .real (.places x)
  | zero : Loadable .real (.digits (.finite false 0 Binary64.minExponent))
  | char (code : Nat) : Loadable .char (.char code)
  | quoted (code : Nat) : Loadable .char (.quoted code)
  | written (text : String) : Loadable .char (.written text)
  | element {cell : Cell} {kind : Kind} {c : Constant} (hcell : cell.isValue = true) (h : Emit.literal? kind = some c) :
      Loadable cell c

/-- The instructions of code, apart from jumps and calls. -/
def Emittable : Instr → Prop
  | .ldc cell c => Loadable cell c
  | .lod cell .. | .str cell .. | .sto cell | .ind cell | .arith _ cell | .neg cell | .compare _ cell | .inc cell _
  | .dec cell _ | .input cell | .output cell => cell.isValue = true
  | .cup .. | .ujp _ | .fjp _ => False
  | _ => True

attribute [local simp] Emittable

/-- A condition on lines that is kept, and that holds of the instructions of code. -/
structure Admits (F : Nat → List Line → Nat → Prop) : Prop extends Kept F where
  instr : ∀ i, Emittable i → ∀ n, F n [.instr i] n

mutual

/-- The code of a coder meets a condition, and so does that of its parts, where the loop around is left and continued at
some labels. -/
def Coder.Meets (F : Nat → List Line → Nat → Prop) (again after : Option Label) : Coder → Prop
  | .mk _ run cs =>
    (∀ setting : Setting, setting.again = again → setting.after = after → Writes F (run setting)) ∧ MeetsAll F again after cs

def Coder.MeetsAll (F : Nat → List Line → Nat → Prop) (again after : Option Label) : List Coder → Prop
  | [] => True
  | c :: cs => Coder.Meets F again after c ∧ Coder.MeetsAll F again after cs

end

namespace Emit

variable {F : Nat → List Line → Nat → Prop} {setting : Setting} {n : Node} {c : Coder} {cs : List Coder}

theorem meets_of_mem {again after : Option Label} (h : Coder.MeetsAll F again after cs) (hc : c ∈ cs) :
    c.Meets F again after := by
  induction cs with
  | nil => cases hc
  | cons d cs ih =>
    obtain ⟨hd, hcs⟩ := h
    obtain rfl | hc := List.mem_cons.1 hc
    · exact hd
    · exact ih hcs hc

theorem mem_of_nth {i : Nat} (h : nth cs i = .ok c) : c ∈ cs := by
  unfold nth at h
  split at h
  next d hd => cases h; exact List.mem_of_getElem? hd
  next => cases h

theorem cellOf_isValue {t : CType} {cell : Cell} (h : cellOf t = .ok cell) : cell.isValue = true := by
  unfold cellOf at h
  split at h
  · cases h; rfl
  · split at h <;> cases h <;> rfl

theorem cell_isValue {cell : Cell} (h : Emit.cell c = .ok cell) : cell.isValue = true := by
  obtain ⟨t, -, ht⟩ := except_bind_eq_ok.1 h
  exact cellOf_isValue ht

/-- A value that objects of a type have at first can be loaded. -/
theorem loadable_zero {t : CType} {cell : Cell} {c : Constant} (hcell : cellOf t = .ok cell) (hc : zeroOf t = .ok c) :
    Loadable cell c := by
  unfold cellOf at hcell
  unfold zeroOf at hc
  split at hc
  next hdepth =>
    rw [if_pos hdepth] at hcell
    cases hcell
    cases hc
    exact .number (.inr (.inl rfl)) 0
  next hdepth =>
    rw [if_neg hdepth] at hcell
    cases hbase : t.base <;> rw [hbase] at hcell hc <;> cases hcell <;> cases hc
    · exact .number (.inl rfl) 0
    · exact .zero
    · exact .number (.inr (.inr rfl)) 0

end Emit

section

variable {F : Nat → List Line → Nat → Prop} {setting : Setting} {c : Coder} {cs : List Coder} {again after : Option Label}

theorem Coder.Meets.run (h : c.Meets F again after) (hagain : setting.again = again) (hafter : setting.after = after) :
    Writes F (c.run setting) := by
  cases c
  exact h.1 setting hagain hafter

variable (hF : Admits F)

include hF

theorem Admits.instrs {is : List Instr} (h : ∀ i ∈ is, Emittable i) : Writes F (Emit.instrs is) :=
  hF.toKept.instrs fun i hi => hF.instr i (h i hi)

theorem Admits.one {i : Instr} (h : Emittable i) : Writes F (Emit.instr i) := writes_line (hF.instr i h)

end

/-! ## Two code makers side by side -/

open Node (Renamed)

def EmitState.push (s : EmitState) (l : Line) : EmitState := { s with code := s.code.push l }

/-- How deep the function is nested that is called by a name. -/
def SymbolTable.calledDepth? (t : SymbolTable) (called : Option String) : Option Int :=
  match (t.lookup called 1).map t.symbol with
  | some (.function g) => some g.depth
  | _ => none

/-- How two code makers are compared: their trees are the same up to names, their states are related, and the first
only adds what it may. If faults count, the second one ends in the same faults. -/
structure Comparison where
  rename : String → String
  nodes : Node → Node → Prop
  /-- Where the loop around is continued and left. -/
  jumps : Option Label → Option Label → Prop
  states : EmitState → EmitState → Prop
  adds : EmitState → EmitState → Prop
  faults : Prop
  renamed {n n' : Node} : nodes n n' → Renamed rename n n'
  refl (s : EmitState) : adds s s
  trans {s t u : EmitState} : adds s t → adds t u → adds s u
  instr {i : Instr} {s s' : EmitState} : Emittable i → states s s' →
    states (s.push (.instr i)) (s'.push (.instr i)) ∧ adds s (s.push (.instr i))
  address {s s' : EmitState} (v : Nat) : states s s' → (s'.table.symbol v).address = (s.table.symbol v).address
  level {s s' : EmitState} (v : Nat) : states s s' → s'.table.levelOf v = s.table.levelOf v
  strings {s s' : EmitState} : states s s' → s'.table.strings = s.table.strings
  called {s s' : EmitState} (name : Option String) : states s s' →
    (∀ d, s.table.calledDepth? name = some d → s'.table.calledDepth? name = some d) ∧
    (faults → s'.table.calledDepth? name = s.table.calledDepth? name)
  same {s s' : EmitState} : faults → states s s' → s' = s

namespace Comparison

variable {α β γ δ : Type} (K : Comparison)

/-- The second code maker follows the first one. -/
def Tracks (A : α → β → Prop) (m : EmitM α) (m' : EmitM β) : Prop :=
  ∀ s s', K.states s s' →
    (∀ a t, Runs m s a t → ∃ b t', Runs m' s' b t' ∧ A a b ∧ K.states t t' ∧ K.adds s t) ∧
    (K.faults → ∀ e t, outcome m s = (.error e, t) → outcome m' s' = (.error e, t))

def Takes (l : Line) : Prop := ∀ s s', K.states s s' → K.states (s.push l) (s'.push l) ∧ K.adds s (s.push l)

variable {K} {A : α → β → Prop} {B : γ → δ → Prop} {m : EmitM α} {m' : EmitM β} {f : α → EmitM γ} {f' : β → EmitM δ}

theorem Tracks.pure {a : α} {b : β} (h : A a b) : K.Tracks A (pure a) (pure b) := by
  refine fun s s' hs => ⟨fun a' t hr => ?_, fun _ e t hr => by cases hr⟩
  obtain ⟨rfl, rfl⟩ := runs_pure.1 hr
  exact ⟨b, s', runs_pure.2 ⟨rfl, rfl⟩, h, hs, K.refl _⟩

/-- The first code maker fails; the second one does so if faults count. -/
theorem Tracks.fail {e : Fault} (h : K.faults → m' = MonadExcept.throw e) : K.Tracks A (throw e) m' := by
  refine fun s s' hs => ⟨fun a t hr => (runs_throw.1 hr).elim, fun hfaults e' t hr => ?_⟩
  rw [K.same hfaults hs, h hfaults]
  cases hr
  rfl

theorem Tracks.throw (e : Fault) : K.Tracks A (throw e) (throw e) := .fail fun _ => rfl

theorem Tracks.bind (h : K.Tracks A m m') (h' : ∀ a b, A a b → K.Tracks B (f a) (f' b)) :
    K.Tracks B (m >>= f) (m' >>= f') := by
  intro s s' hs
  obtain ⟨hruns, hfails⟩ := h s s' hs
  refine ⟨fun c t hr => ?_, fun hfaults e t hr => ?_⟩
  · obtain ⟨a, s1, hm, hf⟩ := runs_bind.1 hr
    obtain ⟨b, s1', hm', hab, hs1, hadds⟩ := hruns a s1 hm
    obtain ⟨d, t', hf', hcd, ht, hadds'⟩ := (h' a b hab s1 s1' hs1).1 c t hf
    exact ⟨d, t', runs_bind.2 ⟨b, s1', hm', hf'⟩, hcd, ht, K.trans hadds hadds'⟩
  · rw [outcome_bind] at hr ⊢
    rcases hm : outcome m s with ⟨e' | a, s1⟩
    · rw [hm] at hr
      cases hr
      rw [hfails hfaults _ _ hm]
    · rw [hm] at hr
      obtain ⟨b, s1', hm', hab, hs1, -⟩ := hruns a s1 hm
      rw [show outcome m' s' = (.ok b, s1') from hm']
      exact (h' a b hab s1 s1' hs1).2 hfaults e t hr

/-- The first code makers give the same. -/
theorem Tracks.andThen {m' : EmitM α} {f' : α → EmitM δ} (h : K.Tracks Eq m m') (h' : ∀ a, K.Tracks B (f a) (f' a)) :
    K.Tracks B (m >>= f) (m' >>= f') := h.bind fun a _ hab => hab ▸ h' a

theorem Tracks.get : K.Tracks K.states (get : EmitM EmitState) get := by
  refine fun s s' hs => ⟨fun a t hr => ?_, fun _ e t hr => by cases hr⟩
  obtain ⟨rfl, rfl⟩ := runs_get.1 hr
  exact ⟨s', s', runs_get.2 ⟨rfl, rfl⟩, hs, hs, K.refl _⟩

theorem Tracks.ite {c c' : Prop} [Decidable c] [Decidable c'] {k : EmitM α} {k' : EmitM β} (hc : c' ↔ c)
    (h : c → K.Tracks A m m') (h' : ¬ c → K.Tracks A k k') :
    K.Tracks A (if c then m else k) (if c' then m' else k') := rel_ite hc h h'

/-- A part that is done only under a condition. -/
theorem Tracks.when {c c' : Prop} [Decidable c] [Decidable c'] {m m' : EmitM PUnit} {k : PUnit → EmitM α}
    {k' : PUnit → EmitM β} (hc : c' ↔ c) (h : K.Tracks Eq m m') (h' : ∀ u, K.Tracks A (k u) (k' u)) :
    K.Tracks A (if c then m >>= k else k ()) (if c' then m' >>= k' else k' ()) := .ite hc (fun _ => h.andThen h') fun _ => h' ()

theorem Tracks.forIn {P : γ → δ → Prop} {as : List γ} {bs : List δ} {f : γ → PUnit → EmitM (ForInStep PUnit)}
    {f' : δ → PUnit → EmitM (ForInStep PUnit)} (has : List.Forall₂ P as bs)
    (h : ∀ a b, P a b → K.Tracks Eq (f a ⟨⟩) (f' b ⟨⟩)) :
    K.Tracks Eq (forIn as PUnit.unit f) (forIn bs PUnit.unit f') := by
  induction has with
  | nil => exact .pure rfl
  | cons ha _ ih =>
    rw [List.forIn_cons, List.forIn_cons]
    refine (h _ _ ha).andThen fun r => ?_
    cases r with
    | done u => exact .pure rfl
    | yield u => exact ih

theorem Tracks.each {as : List γ} {f f' : γ → PUnit → EmitM (ForInStep PUnit)} (h : ∀ a, K.Tracks Eq (f a ⟨⟩) (f' a ⟨⟩)) :
    K.Tracks Eq (do ForIn.forIn as PUnit.unit f; Pure.pure ()) (do ForIn.forIn as PUnit.unit f'; Pure.pure ()) :=
  .andThen (.forIn (List.forall₂_same.2 fun _ _ => rfl) fun a _ hab => hab ▸ h a) fun _ => .pure rfl

/-- Both first work out the same. -/
theorem Tracks.same {e e' : Except Fault α} {f' : α → EmitM δ} (he : e' = e)
    (h : ∀ a, e = .ok a → K.Tracks B (f a) (f' a)) : K.Tracks B (Emit.lift e >>= f) (Emit.lift e' >>= f') := by
  subst he
  cases e' with
  | error x => exact .bind (A := fun _ _ => False) (.throw x) fun _ _ hab => hab.elim
  | ok a => exact h a rfl

theorem Takes.tracks {l : Line} (h : K.Takes l) : K.Tracks Eq (Emit.line l) (Emit.line l) := by
  refine fun s s' hs => ⟨fun u t hr => ?_, fun _ e t hr => by cases hr⟩
  obtain rfl := runs_modify.1 hr
  exact ⟨u, s'.push l, runs_modify.2 rfl, rfl, h s s' hs⟩

variable (K)

theorem one {i : Instr} (h : Emittable i) : K.Tracks Eq (Emit.instr i) (Emit.instr i) :=
  Takes.tracks fun _ _ hs => K.instr h hs

theorem instrs {is : List Instr} (h : ∀ i ∈ is, Emittable i) : K.Tracks Eq (Emit.instrs is) (Emit.instrs is) := by
  induction is with
  | nil => exact .pure rfl
  | cons i is ih => exact .andThen (K.one (h i List.mem_cons_self)) fun _ => ih fun j hj => h j (List.mem_cons_of_mem i hj)

theorem offsetOf (v : Option Nat) : K.Tracks Eq (Emit.offsetOf v) (Emit.offsetOf v) := by
  refine .bind .get fun s s' hs => ?_
  have haddress : (v.bind fun v => (s'.table.symbol v).address) = v.bind fun v => (s.table.symbol v).address :=
    congrArg v.bind (funext fun v => K.address v hs)
  rw [haddress]
  split
  · exact .pure rfl
  · exact .throw _

end Comparison

/-- Settings that are the same up to the names in the nodes above. -/
structure Setting.Like (K : Comparison) (s s' : Setting) : Prop where
  address : s'.address = s.address
  again : s'.again = s.again
  after : s'.after = s.after
  above : List.Forall₂ K.nodes s.above s'.above
  jumps : K.jumps s.again s.after

/-- The second coder follows the first one, and so do those of the children. -/
inductive Coder.Like (K : Comparison) : Coder → Coder → Prop
  | mk {n n' : Node} {run run' : Setting → EmitM Unit} {cs cs' : List Coder} (hn : K.nodes n n')
      (hrun : ∀ s s', s.Like K s' → K.Tracks Eq (run s) (run' s')) (hcs : List.Forall₂ (Coder.Like K) cs cs') :
      Coder.Like K (.mk n run cs) (.mk n' run' cs')

namespace Setting.Like

variable {K : Comparison} {s s' : Setting} (h : s.Like K s')

include h

theorem withAddress (address : Bool) : Like K { s with address } { s' with address } := { h with address := rfl }

theorem inside {n n' : Node} (hn : K.nodes n n') :
    Like K { s with above := n :: s.above } { s' with above := n' :: s'.above } := { h with above := .cons hn h.above }

theorem renamed : List.Forall₂ (Renamed K.rename) s.above s'.above := h.above.imp fun _ _ => K.renamed

theorem inLoop (again after : Option Label) (hjumps : K.jumps again after) :
    Like K { s with again, after } { s' with again, after } := { h with again := rfl, after := rfl, jumps := hjumps }

theorem eq (hnodes : ∀ n n', K.nodes n n' → n = n') : s = s' := by
  obtain ⟨haddress, hagain, hafter, habove, -⟩ := h
  have habove : s.above = s'.above := List.forall₂_eq_eq_eq ▸ habove.imp hnodes
  cases s
  cases s'
  simp_all

end Setting.Like

namespace Coder.Like

variable {K : Comparison} {c c' : Coder} (h : c.Like K c')

include h

theorem node : K.nodes c.node c'.node := by
  cases h with
  | mk hn hrun hcs => exact hn

theorem run {s s' : Setting} (hs : s.Like K s') : K.Tracks Eq (c.run s) (c'.run s') := by
  cases h with
  | mk hn hrun hcs => exact hrun s s' hs

theorem children : List.Forall₂ (Coder.Like K) c.children c'.children := by
  cases h with
  | mk hn hrun hcs => exact hcs

theorem kind : c'.node.kind = c.node.kind.rename K.rename := (K.renamed h.node).kind_eq

theorem typeOf : Emit.typeOf c' = Emit.typeOf c := (K.renamed h.node).exprType

theorem cell : Emit.cell c' = Emit.cell c := by rw [Emit.cell, Emit.cell, h.typeOf]

end Coder.Like

namespace Emit

variable {α : Type} {K : Comparison} {n n' : Node} {cs cs' : List Coder} {s s' : Setting}
  (hn : K.nodes n n') (hcs : List.Forall₂ (Coder.Like K) cs cs') (hs : s.Like K s')

/-- What is asked of a child, if the children beside it give the same answers. -/
theorem nth_bind_eq {P : Coder → Coder → Prop} {g : Coder → Except Fault α} (hcs : List.Forall₂ P cs cs')
    (hg : ∀ c c', P c c' → g c' = g c) (i : Nat) : (nth cs' i >>= g) = (nth cs i >>= g) := by
  induction hcs generalizing i with
  | nil => rfl
  | cons hc _ ih =>
    cases i with
    | zero => exact hg _ _ hc
    | succ i => exact ih i

section

include hcs

/-- A child of a node. -/
theorem tracks_nth (i : Nat) : K.Tracks (Coder.Like K) (lift (nth cs i)) (lift (nth cs' i)) := by
  have hrel := rel_getElem? hcs i
  unfold nth
  generalize cs[i]? = a at hrel ⊢
  generalize cs'[i]? = a' at hrel ⊢
  cases hrel with
  | none => exact .throw _
  | some hc => exact .pure hc

theorem nth_typeOf (i : Nat) : (nth cs' i >>= typeOf) = (nth cs i >>= typeOf) := nth_bind_eq hcs (fun _ _ hc => hc.typeOf) i

theorem nth_cell (i : Nat) : (nth cs' i >>= cell) = (nth cs i >>= cell) := nth_bind_eq hcs (fun _ _ hc => hc.cell) i

include hs

theorem tracks_runAll : K.Tracks Eq (runAll s cs) (runAll s' cs') := by
  induction hcs with
  | nil => exact .pure rfl
  | cons hc _ ih => exact .andThen (hc.run hs) fun _ => ih

end

/-! ## Expressions -/

/-- The last part of the header of a loop. -/
theorem iteration_renamed {r : String → String} (hn : Renamed r n n') :
    Option.Rel (Renamed r) n.header.iteration n'.header.iteration := by
  have hkind := hn.kind_eq
  unfold Node.header
  rw [hkind]
  cases n.kind with
  | forLoop a b c =>
    dsimp only [Kind.rename]
    split
    · exact rel_getElem? hn.children _
    · exact .none
  | _ => exact .none

theorem isDropped_renamed {r : String → String} (hn : Renamed r n n') {above above' : List Node}
    (habove : List.Forall₂ (Renamed r) above above') : isDropped n' above' = isDropped n above := by
  cases habove with
  | nil => rfl
  | @cons parent parent' _ _ hparent _ =>
    have hiteration : (parent'.header.iteration.any (·.id == n'.id)) = parent.header.iteration.any (·.id == n.id) := by
      have hrel := iteration_renamed hparent
      generalize parent.header.iteration = a at hrel ⊢
      generalize parent'.header.iteration = a' at hrel ⊢
      cases hrel with
      | none => rfl
      | some hi => simp only [Option.any_some, hi.id_eq, hn.id_eq]
    simp only [isDropped, hparent.kind_eq, Kind.isExpression_rename, hn.exprType, hiteration]
    cases parent.kind <;> rfl

theorem tracks_stepValue (up : Bool) (type : CType) : K.Tracks Eq (stepValue up type) (stepValue up type) := by
  have hstep : ∀ cell n, cell.isValue = true → Emittable (if up = true then .inc cell n else .dec cell n) := by
    intro cell n hcell
    cases up <;> exact hcell
  refine .same rfl fun _ _ => .ite .rfl (fun _ => .same rfl fun size _ => K.instrs ?_) fun _ =>
    .same rfl fun cell hcell => K.one (hstep cell 1 (cellOf_isValue hcell))
  intro i hi
  simp only [List.mem_cons, List.not_mem_nil, or_false] at hi
  obtain rfl | rfl | rfl := hi
  · trivial
  · exact hstep .int size rfl
  · trivial

section

include hn hs

theorem tracks_dropping {make make' : EmitM Unit} (h : K.Tracks Eq make make') :
    K.Tracks Eq (dropping n s make) (dropping n' s' make') := by
  have hdropped := isDropped_renamed (K.renamed hn) hs.renamed
  refine .same hdropped fun _ _ => .when .rfl (K.one (.number (.inr (.inl rfl)) 0)) fun _ => .andThen h fun _ =>
    .same hdropped fun _ _ => .ite .rfl (fun _ => .same (by rw [(K.renamed hn).exprType]) fun cell hcell => ?_) fun _ => .pure rfl
  obtain ⟨t, -, hcell⟩ := except_bind_eq_ok.1 hcell
  exact K.one (cellOf_isValue hcell)

theorem tracks_name (symbol : Option Nat) : K.Tracks Eq (name n symbol s) (name n' symbol s') := by
  refine .bind .get fun u u' hu => .same (K.renamed hn).exprType fun type _ => ?_
  have hlevel : symbol.bind u'.table.levelOf = symbol.bind u.table.levelOf := congrArg symbol.bind (funext (K.level · hu))
  rw [hlevel, hs.address]
  refine .ite .rfl (fun _ => .andThen (.pure rfl) fun isArray => ?_) fun _ => .same rfl fun isArray _ => ?_
  all_goals
    exact .andThen (K.offsetOf symbol) fun _ => .ite .rfl (fun _ => K.one trivial) fun _ =>
      .same rfl fun _ hcell => K.one (cellOf_isValue hcell)

omit hn

theorem tracks_stringLiteral (codes : List Nat) :
    K.Tracks Eq (stringLiteral codes s.above) (stringLiteral codes s'.above) := by
  have habove := hs.renamed
  generalize s.above = above at habove ⊢
  generalize s'.above = above' at habove ⊢
  unfold stringLiteral
  rcases habove with _ | ⟨hlist, _ | ⟨hholder, hrest⟩⟩
  case' nil => refine .andThen (.pure rfl) fun fills => ?_
  case' cons.nil =>
    refine .ite (by rw [hlist.kind_eq, Kind.isInitializerList_rename]) (fun _ => .andThen (.throw _) fun fills => ?_) fun _ =>
      .andThen (.pure rfl) fun fills => ?_
  case' cons.cons =>
    refine .ite (by rw [hlist.kind_eq, Kind.isInitializerList_rename])
      (fun _ => .same (by rw [Node.head?_renamed hrest, hholder.typeOf]) fun fills _ => ?_) fun _ => .andThen (.pure rfl) fun fills => ?_
  all_goals
    refine .ite .rfl (fun _ => .pure rfl) fun _ => .bind .get fun u u' hu => ?_
    rw [SymbolTable.findString, SymbolTable.findString, K.strings hu]
    split
    · exact .throw _
    · exact .andThen (K.offsetOf _) fun _ => K.one trivial

end

section

include hcs hs

theorem tracks_arguments : K.Tracks Eq (arguments cs s) (arguments cs' s') := by
  unfold arguments
  refine .andThen (.forIn hcs fun c c' hc => ?_) fun _ => .pure rfl
  refine .ite (by rw [hc.kind, Kind.isName_rename]) (fun _ => .same hc.typeOf fun type _ => ?_) fun _ =>
    .andThen (hc.run hs) fun _ => .pure rfl
  refine .andThen (hc.run ?_) fun _ => .pure rfl
  split
  · exact hs.withAddress true
  · exact hs

theorem tracks_assign : K.Tracks Eq (assign cs s) (assign cs' s') :=
  .bind (tracks_nth hcs 0) fun _ _ htarget => .andThen (htarget.run (hs.withAddress true)) fun _ => .andThen (K.one trivial) fun _ =>
    .bind (tracks_nth hcs 1) fun _ _ hvalue => .andThen (hvalue.run (hs.withAddress false)) fun _ =>
      .same htarget.cell fun _ hcell => K.instrs (by simp [cell_isValue hcell])

theorem tracks_logic (op : LogicOp) : K.Tracks Eq (logic op cs s) (logic op cs' s') :=
  .bind (tracks_nth hcs 0) fun _ _ hleft => .andThen (hleft.run (hs.withAddress false)) fun _ => .andThen (K.one trivial) fun _ =>
    .bind (tracks_nth hcs 1) fun _ _ hright => .andThen (hright.run (hs.withAddress false)) fun _ => K.instrs (by simp)

theorem tracks_compare (op : CompareOp) : K.Tracks Eq (compare op cs s) (compare op cs' s') := by
  refine .andThen (tracks_runAll hcs (hs.withAddress false)) fun _ => .same (nth_cell hcs 0) fun cell hcell => K.instrs ?_
  obtain ⟨left, -, hcell⟩ := except_bind_eq_ok.1 hcell
  simp [cell_isValue hcell]

theorem tracks_unary (op : UnaryOp) (side : Side) : K.Tracks Eq (unary op side cs s) (unary op side cs' s') := by
  refine .same (nth_typeOf hcs 0) fun type _ => .andThen (tracks_runAll hcs (hs.withAddress _)) fun _ => .same rfl fun cell hcell => ?_
  refine .ite .rfl (fun _ => ?_) fun _ => .ite .rfl (fun _ => K.one (cellOf_isValue hcell)) fun _ => .pure rfl
  exact .andThen (K.instrs (by simp [cellOf_isValue hcell])) fun _ => .andThen (tracks_stepValue _ _) fun _ =>
    .andThen (K.instrs (by simp [cellOf_isValue hcell])) fun _ => .ite .rfl (fun _ => tracks_stepValue _ _) fun _ => .pure rfl

theorem tracks_addressOf : K.Tracks Eq (addressOf cs s) (addressOf cs' s') := by
  refine .bind (tracks_nth hcs 0) fun operand operand' hoperand => ?_
  have hinside := hs.withAddress true
  refine .ite (by rw [hoperand.kind, Kind.rename_beq _ rfl]) (fun _ => ?_) fun _ => tracks_runAll hcs hinside
  exact tracks_runAll hoperand.children (hinside.inside hoperand.node)

theorem tracks_logicalNot : K.Tracks Eq (logicalNot cs s) (logicalNot cs' s') :=
  .andThen (tracks_runAll hcs (hs.withAddress false)) fun _ => K.instrs (by simp)

theorem tracks_remainder : K.Tracks Eq (remainder cs s) (remainder cs' s') := by
  refine .bind (tracks_nth hcs 0) fun _ _ hleft => .andThen (hleft.run hs) fun _ => .andThen (K.instrs ?_) fun _ =>
    .bind (tracks_nth hcs 1) fun _ _ hright => .andThen (hright.run hs) fun _ => K.instrs ?_
  · simpa using Loadable.number (.inr (.inl rfl)) 0
  · simpa [loadCell, Cell.isValue] using Loadable.number (.inr (.inl rfl)) 0

theorem tracks_pointerArith (op : ArithOp) (pointerLeft : Bool) (size : Int) :
    K.Tracks Eq (pointerArith op pointerLeft size cs s) (pointerArith op pointerLeft size cs' s') := by
  have hscale : ∀ i ∈ [.ldc .int (.number size), .arith .mul .int], Emittable i := by
    simpa [Cell.isValue] using Loadable.number (.inl rfl) size
  have hconv : ∀ i ∈ [Instr.conv .address .int], Emittable i := by simp
  refine .bind (tracks_nth hcs 0) fun _ _ hleft => .andThen (hleft.run hs) fun _ => .andThen (K.instrs ?_) fun _ =>
    .bind (tracks_nth hcs 1) fun _ _ hright => .andThen (hright.run hs) fun _ => .andThen (K.instrs ?_) fun _ =>
      .same rfl fun _ _ => K.instrs (by simp [Cell.isValue])
  · cases pointerLeft
    · exact hscale
    · exact hconv
  · cases pointerLeft
    · exact hconv
    · exact hscale

theorem tracks_arith (op : ArithOp) : K.Tracks Eq (arith op cs s) (arith op cs' s') := by
  have hinside := hs.withAddress false
  refine .same (nth_typeOf hcs 0) fun left _ => .same (nth_typeOf hcs 1) fun right _ =>
    .ite .rfl (fun _ => tracks_remainder hcs hinside) fun _ => .same rfl fun leftPointer _ =>
      .ite .rfl (fun _ => .andThen (.pure rfl) fun rightPointer => ?_) fun _ => .same rfl fun rightPointer _ => ?_
  all_goals
    refine .ite .rfl (fun _ => .same rfl fun size _ => tracks_pointerArith hcs hinside op _ size) fun _ =>
      .andThen (tracks_runAll hcs hinside) fun _ => .same rfl fun op _ => .same (nth_cell hcs 0) fun cell hcell => ?_
    obtain ⟨left, -, hcell⟩ := except_bind_eq_ok.1 hcell
    exact K.one (cell_isValue hcell)

include hn

theorem tracks_comma : K.Tracks Eq (comma n cs s) (comma n' cs' s') := by
  have hinside := hs.withAddress false
  have hsecond : K.Tracks Eq (do let second ← lift (nth cs 1); second.run { s with address := false })
      (do let second ← lift (nth cs' 1); second.run { s' with address := false }) :=
    .bind (tracks_nth hcs 1) fun _ _ hsecond => hsecond.run hinside
  refine .bind (tracks_nth hcs 0) fun first first' hfirst => .same (K.renamed hn).exprType fun type _ => .same rfl fun isVoid _ => ?_
  refine .ite .rfl (fun _ => .andThen (hfirst.run hinside) fun _ => hsecond) fun _ =>
    .andThen (K.one (.number (.inr (.inl rfl)) 0)) fun _ => .andThen (hfirst.run hinside) fun _ => ?_
  exact .same hfirst.cell fun cell hcell => .andThen (K.one (cell_isValue hcell)) fun _ => hsecond

theorem tracks_cast : K.Tracks Eq (cast n cs s) (cast n' cs' s') := by
  refine .andThen (tracks_runAll hcs hs) fun _ => .ite (by rw [hs.address]) (fun _ => ?_) fun _ => .pure rfl
  exact .same (nth_cell hcs 0) fun _ _ => .same (by rw [(K.renamed hn).exprType]) fun _ _ =>
    .ite .rfl (fun _ => K.one trivial) fun _ => .pure rfl

theorem tracks_dereference : K.Tracks Eq (dereference n cs s) (dereference n' cs' s') := by
  refine .andThen (tracks_runAll hcs (hs.withAddress false)) fun _ => .ite (by rw [hs.address])
    (fun _ => .same (by rw [(K.renamed hn).exprType]) fun cell hcell => ?_) fun _ => .pure rfl
  obtain ⟨t, -, hcell⟩ := except_bind_eq_ok.1 hcell
  exact K.one (cellOf_isValue hcell)

theorem tracks_subscript : K.Tracks Eq (subscript n cs s) (subscript n' cs' s') := by
  refine .bind (tracks_nth hcs 0) fun _ _ harray => .same harray.typeOf fun arrayType _ =>
    .same (K.renamed hn).exprType fun type _ => .andThen (harray.run (hs.withAddress true)) fun _ => .same rfl fun isPointer _ =>
      .when .rfl (K.one rfl) fun _ => .bind (tracks_nth hcs 1) fun _ _ hindex => .andThen (hindex.run (hs.withAddress false)) fun _ => ?_
  refine .ite .rfl (fun _ => .same rfl fun _ _ => .andThen (K.one trivial) fun _ => ?_) fun _ => ?_
  all_goals
    exact .same rfl fun _ _ => .andThen (K.one trivial) fun _ => .ite (by rw [hs.address])
      (fun _ => .same rfl fun _ hcell => K.one (cellOf_isValue hcell)) fun _ => .pure rfl

end

/-! ## Declared objects -/

section

theorem tracks_storeConstant {cell : Cell} {k : Constant} (hcell : cell.isValue = true) (h : Loadable cell k) (address : Int) :
    K.Tracks Eq (storeConstant cell k address) (storeConstant cell k address) := K.instrs (by simp [hcell, h])

theorem tracks_clearArray (dims : Nat) (type : CType) (address : Int) :
    K.Tracks Eq (clearArray dims type address) (clearArray dims type address) := by
  induction dims generalizing type address with
  | zero => exact .pure rfl
  | succ dims ih =>
    unfold clearArray
    refine .same rfl fun count _ => .same rfl fun size _ => .each fun i => ?_
    cases dims with
    | zero =>
      exact .same rfl fun cell hcell => .same rfl fun zero hzero => .andThen
        (tracks_storeConstant (cellOf_isValue hcell) (loadable_zero hcell hzero) _) fun _ => .pure rfl
    | succ dims => exact .andThen (ih _ _) fun _ => .pure rfl

theorem tracks_storeString (count : Nat) (address : Int) (codes : List Nat) :
    K.Tracks Eq (storeString count address codes) (storeString count address codes) := by
  refine .each fun i => .andThen (K.instrs ?_) fun _ => .pure rfl
  intro j hj
  simp only [List.mem_cons, List.not_mem_nil, or_false] at hj
  obtain rfl | rfl | rfl := hj
  · trivial
  · change Loadable .char _
    split
    · exact .quoted _
    · exact .number (.inr (.inr rfl)) 27
  · rfl

include hs

theorem tracks_storeElement {element element' : Option Coder} (type : CType) (address : Int)
    (h : Option.Rel (Coder.Like K) element element') :
    K.Tracks Eq (storeElement s type element address) (storeElement s' type element' address) := by
  refine .same rfl fun cell hcell => ?_
  have hvalue := cellOf_isValue hcell
  cases h with
  | none => exact .same rfl fun zero hzero => tracks_storeConstant hvalue (loadable_zero hcell hzero) _
  | some hc =>
    have hliteral : ∀ k : Kind, literal? (k.rename K.rename) = literal? k := fun k => by cases k <;> rfl
    dsimp only
    rw [hc.kind, hliteral]
    split
    next value hliteral => exact tracks_storeConstant hvalue (.element hvalue hliteral) _
    next => exact .andThen (hc.run (hs.withAddress true)) fun _ => K.one hvalue

theorem tracks_storeRow (level count : Nat) (type : CType) (address : Int) (hcs : List.Forall₂ (Coder.Like K) cs cs') :
    K.Tracks Eq (storeRow s level count type cs address) (storeRow s' level count type cs' address) := by
  induction count generalizing type cs cs' address with
  | zero => exact .pure rfl
  | succ count ih =>
    cases hcs with
    | nil => exact .andThen (tracks_storeElement hs _ _ .none) fun _ => ih _ _ .nil
    | cons hc hcs => exact .andThen (tracks_storeElement hs _ _ (.some hc)) fun _ => ih _ _ hcs

theorem tracks_storeList (type : CType) (below level : Nat) (address : Int) (hcs : List.Forall₂ (Coder.Like K) cs cs') :
    K.Tracks Eq (storeList type below level s cs address) (storeList type below level s' cs' address) := by
  induction below generalizing level s s' cs cs' address with
  | zero =>
    unfold storeList
    exact .same rfl fun extent _ => tracks_storeRow hs _ _ _ _ hcs
  | succ below ih =>
    unfold storeList
    refine .same rfl fun extent _ => .same rfl fun size _ => .each fun i => ?_
    have hrel := rel_getElem? hcs i
    generalize cs[i]? = a at hrel ⊢
    generalize cs'[i]? = a' at hrel ⊢
    cases hrel with
    | none => exact .andThen (ih hs _ _ .nil) fun _ => .pure rfl
    | some hc => exact .same rfl fun step _ => .andThen (ih (hs.inside hc.node) _ _ hc.children) fun _ => .pure rfl

omit hs in
theorem stringCodes?_like {c c' : Coder} (hc : Coder.Like K c c') :
    c'.children.head?.bind stringCodes? = c.children.head?.bind stringCodes? := by
  have hchildren := hc.children
  generalize c.children = ds at hchildren ⊢
  generalize c'.children = ds' at hchildren ⊢
  cases hchildren with
  | nil => rfl
  | @cons d d' _ _ hd _ =>
    simp only [List.head?_cons, Option.bind_some, stringCodes?, hd.kind]
    cases d.node.kind <;> rfl

include hn hcs

theorem tracks_declarator (head : DeclaratorHead) :
    K.Tracks Eq (declarator n head cs s) (declarator n' { head with name := head.name.map K.rename } cs' s') := by
  have hinside := hs.inside hn
  have hlist : Option.Rel (Coder.Like K) (cs.filter (·.node.kind.isInitializerList)).getLast?
      (cs'.filter (·.node.kind.isInitializerList)).getLast? :=
    rel_getLast? (forall₂_filter hcs fun c c' hc => by rw [hc.kind, Kind.isInitializerList_rename])
  unfold declarator
  rw [Node.head?_renamed hs.renamed]
  refine .same (Node.declaratorType_rename _ head) fun type _ => .same rfl fun isArray _ => ?_
  have hstore : K.Tracks Eq (do
      let cell ← lift (cellOf type)
      let offset ← offsetOf head.symbol
      instr (.str cell 0 offset)) (do
      let cell ← lift (cellOf type)
      let offset ← offsetOf head.symbol
      instr (.str cell 0 offset)) :=
    .same rfl fun _ hcell => .andThen (K.offsetOf _) fun _ => K.one (cellOf_isValue hcell)
  dsimp only
  generalize (cs.filter (·.node.kind.isInitializerList)).getLast? = a at hlist ⊢
  generalize (cs'.filter (·.node.kind.isInitializerList)).getLast? = a' at hlist ⊢
  cases hlist with
  | none =>
    refine .ite .rfl (fun _ => ?_) fun _ => ?_
    · exact .andThen (K.offsetOf _) fun _ => tracks_clearArray _ _ _
    · exact .same rfl fun zero hzero => .same rfl fun cell hcell => .andThen (K.one (loadable_zero hcell hzero)) fun _ => hstore
  | some hc =>
    dsimp only
    rw [stringCodes?_like hc]
    refine .same rfl fun isString _ => ?_
    split
    · exact .same rfl fun count _ => .andThen (K.offsetOf _) fun offset => tracks_storeString _ _ _
    · refine .ite .rfl (fun _ => ?_) fun _ => .andThen (hc.run hinside) fun _ => hstore
      exact .andThen (K.offsetOf _) fun offset => tracks_storeList (hinside.inside hc.node) _ _ _ _ hc.children

end

/-! ## Input and output -/

theorem tracks_outText (codes : List Nat) : K.Tracks Eq (outText codes) (outText codes) := by
  induction codes with
  | nil => exact .pure rfl
  | cons c codes ih => exact .andThen (K.instrs (by simpa [Cell.isValue] using Loadable.char c)) fun _ => ih

theorem tracks_blanks (count : Nat) : K.Tracks Eq (blanks count) (blanks count) := by
  induction count with
  | zero => exact .pure rfl
  | succ count ih =>
    exact .andThen (K.instrs (by simpa [blank, Emittable, Cell.isValue] using Loadable.char 32)) fun _ => ih

/-- Reads a string to an address. -/
def scanString (value : EmitM Unit) : EmitM Unit := do
  let scanLoop ← newLabel .scanLoop
  let scanDone ← newLabel .scanDone
  value
  lines ([.label scanLoop]
    ++ code [.dpl .address, .input .char, .sto .char, .dpl .address, .ind .char, .ldc .char (.number 27),
      .compare .ne .char, .fjp scanDone, .inc .address 1, .ujp scanLoop]
    ++ [.label scanDone])

end Emit

/-- The code of input and output, which has labels of its own, is followed too. -/
structure Comparison.Loops (K : Comparison) : Prop where
  paddedInt {value value' : EmitM Unit} (width : Int) :
    K.Tracks Eq value value' → K.Tracks Eq (Emit.outPaddedInt width value) (Emit.outPaddedInt width value')
  string {value value' : EmitM Unit} (width : Int) :
    K.Tracks Eq value value' → K.Tracks Eq (Emit.outString width value) (Emit.outString width value')
  scan {value value' : EmitM Unit} :
    K.Tracks Eq value value' → K.Tracks Eq (Emit.scanString value) (Emit.scanString value')

namespace Emit

variable {K : Comparison} {n n' : Node} {c c' : Coder} {cs cs' : List Coder} {s s' : Setting} (hK : K.Loops)
  (hn : K.nodes n n') (hcs : List.Forall₂ (Coder.Like K) cs cs') (hs : s.Like K s')

section

include hs

theorem tracks_library (hcs : List.Forall₂ (Coder.Like K) cs cs') (pieces : Option (List Piece))
    {make : Setting → List Coder → List Piece → EmitM Unit} (h : ∀ s s' as as' ps, s.Like K s' →
      List.Forall₂ (Coder.Like K) as as' → K.Tracks Eq (make s as ps) (make s' as' ps)) :
    K.Tracks Eq (call.library pieces cs s make) (call.library pieces cs' s' make) := by
  have hfind : Option.Rel (Coder.Like K) (cs.find? (·.node.kind == .arguments)) (cs'.find? (·.node.kind == .arguments)) :=
    rel_find? hcs fun c c' hc => by rw [hc.kind, Kind.rename_beq _ rfl]
  unfold call.library
  generalize cs.find? (·.node.kind == .arguments) = a at hfind ⊢
  generalize cs'.find? (·.node.kind == .arguments) = a' at hfind ⊢
  cases hfind with
  | none => cases pieces <;> exact .throw _
  | some hlist =>
    cases pieces with
    | none => exact .throw _
    | some ps => exact h _ _ _ _ ps (hs.inside hlist.node) hlist.children

include hK

theorem tracks_outArgument (width : Int) (hc : c.Like K c') : K.Tracks Eq (outArgument s width c) (outArgument s' width c') := by
  have hvalue := hc.run (hs.withAddress false)
  refine .same hc.typeOf fun type _ => .same rfl fun isInt _ => .ite .rfl (fun _ => hK.paddedInt width hvalue) fun _ =>
    .same rfl fun isChar _ => .ite .rfl (fun _ => ?_) fun _ => .same rfl fun shown _ => .same rfl fun string _ => .same rfl fun b _ =>
      .ite .rfl (fun _ => hK.string width hvalue) fun _ => .same rfl fun isVoid _ => .ite .rfl (fun _ => ?_) fun _ => .pure rfl
  · exact .andThen (tracks_blanks _) fun _ => .andThen (hc.run hs) fun _ => K.one rfl
  · exact .andThen hvalue fun _ => .same rfl fun cell hcell => K.one (cellOf_isValue hcell)

theorem tracks_inArgument (hc : c.Like K c') : K.Tracks Eq (inArgument s c) (inArgument s' c') := by
  have hvalue := hc.run (hs.withAddress false)
  refine .same hc.typeOf fun type _ => .same rfl fun isString _ => .ite .rfl (fun _ => hK.scan hvalue) fun _ =>
    .andThen hvalue fun _ => .same rfl fun cell hcell => K.instrs ?_
  simp [cellOf_isValue hcell]

include hcs

theorem tracks_outPieces (pieces : List Piece) : K.Tracks Eq (outPieces s cs pieces) (outPieces s' cs' pieces) := by
  induction pieces with
  | nil => exact .pure rfl
  | cons piece rest ih =>
    cases piece with
    | text raw => exact .same rfl fun codes _ => .andThen (tracks_outText codes) fun _ => ih
    | field width i => exact .bind (tracks_nth hcs i) fun c c' hc => .andThen (tracks_outArgument hK hs width hc) fun _ => ih

theorem tracks_inPieces (pieces : List Piece) : K.Tracks Eq (inPieces s cs pieces) (inPieces s' cs' pieces) := by
  induction pieces with
  | nil => exact .pure rfl
  | cons piece rest ih =>
    cases piece with
    | text raw => exact ih
    | field width i => exact .bind (tracks_nth hcs i) fun c c' hc => .andThen (tracks_inArgument hK hs hc) fun _ => ih

/-! ## Calls and returns -/

theorem tracks_call (called : Option String) (callee : Option Callee) (pieces : Option (List Piece))
    (hcup : ∀ f, callee = some f → f.isLibrary = false → ∀ k, K.Takes (.instr (.cup k (.function f.name)))) :
    K.Tracks Eq (call called callee pieces cs s) (call called callee pieces cs' s') := by
  cases callee with
  | none => exact .throw _
  | some f =>
    refine .ite .rfl (fun _ => ?_) fun hlibrary => .bind .get fun u u' hu => ?_
    · split
      · exact tracks_library hs hcs pieces fun s s' as as' ps hs has => tracks_outPieces hK has hs ps
      · exact tracks_library hs hcs pieces fun s s' as as' ps hs has => tracks_inPieces hK has hs ps
      · exact .pure rfl
    · obtain ⟨hfound, hsame⟩ := K.called called hu
      unfold SymbolTable.calledDepth? at hfound hsame
      generalize (u.table.lookup called 1).map u.table.symbol = a at hfound hsame ⊢
      generalize (u'.table.lookup called 1).map u'.table.symbol = a' at hfound hsame ⊢
      match a, a' with
      | some (.function g), some (.function g') =>
        dsimp only
        rw [Option.some.inj (hfound g.depth rfl)]
        refine .andThen (K.one trivial) fun _ => .andThen (tracks_runAll hcs hs) fun _ => .bind (tracks_nth hcs 0) fun _ _ hfirst => ?_
        rw [hfirst.children.length_eq]
        exact (hcup f rfl (by simpa using hlibrary) _).tracks
      | some (.function g), some (.object _) | some (.function g), none => cases hfound g.depth rfl
      | some (.object _), some (.function _) | none, some (.function _) => exact .fail fun hfaults => (by cases hsame hfaults)
      | some (.object _), some (.object _) | some (.object _), none | none, some (.object _) | none, none => exact .throw _

omit hK in
theorem tracks_returnStmt : K.Tracks Eq (returnStmt cs s) (returnStmt cs' s') := by
  cases hcs with
  | nil => exact K.one trivial
  | cons hc hrest =>
    refine .andThen (tracks_runAll (.cons hc hrest) hs) fun _ => .same hc.cell fun cell hcell => K.instrs ?_
    simp [cell_isValue hcell]

end

/-- Kinds of nodes whose code has labels of its own or jumps. -/
def isControl : Kind → Bool
  | .breakStmt | .continueStmt | .ifStmt | .forLoop .. | .whileLoop | .doWhile | .conditional => true
  | .function head => head.form.isDefinition
  | _ => false

include hK hn hcs hs

/-- The code of a node that is not about control and opens no scope. -/
theorem tracks_codeOf (hkind : isControl n.kind = false) (hscope : n.kind ≠ .statements) (hcup : ∀ called f pieces, n.kind = .call called (some f) pieces →
      f.isLibrary = false → ∀ k, K.Takes (.instr (.cup k (.function f.name)))) :
    K.Tracks Eq (codeOf n cs s) (codeOf n' cs' s') := by
  have hinside := hs.inside hn
  have hall := tracks_runAll hcs hinside
  have hvalue : ∀ {make make' : EmitM Unit}, K.Tracks Eq make make' → K.Tracks Eq (dropping n s make) (dropping n' s' make') :=
    tracks_dropping hn hs
  unfold codeOf
  rw [(K.renamed hn).kind_eq]
  cases hk : n.kind with
  | function head => exact .ite .rfl (fun hform => absurd hform (by simpa [hk, isControl] using hkind)) fun _ => hall
  | parameters => exact .pure rfl
  | parameter head => exact .pure rfl
  | arguments => exact tracks_arguments hcs hinside
  | returnStmt => exact tracks_returnStmt hcs hinside
  | declarator head => exact tracks_declarator hn hcs hs head
  | integer value => exact hvalue (K.one (.number (.inl rfl) value))
  | float value => exact hvalue (K.one (.places value))
  | character text => exact hvalue (K.one (.written text))
  | string raw codes => exact hvalue (tracks_stringLiteral hs codes)
  | name text type symbol => exact hvalue (tracks_name hn hs symbol)
  | call called callee pieces =>
    exact hvalue (tracks_call hK hcs hinside called callee pieces fun f hf => hcup called f pieces (by rw [hk, hf]))
  | cast spec layers => exact hvalue (tracks_cast hn hcs hinside)
  | unary op side => exact hvalue (tracks_unary hcs hinside op side)
  | addressOf => exact hvalue (tracks_addressOf hcs hinside)
  | dereference => exact hvalue (tracks_dereference hn hcs hinside)
  | logicalNot => exact tracks_logicalNot hcs hinside
  | subscript => exact hvalue (tracks_subscript hn hcs hinside)
  | comma => exact hvalue (tracks_comma hn hcs hinside)
  | assign => exact hvalue (tracks_assign hcs hinside)
  | logic op => exact hvalue (tracks_logic hcs hinside op)
  | compare op => exact hvalue (tracks_compare hcs hinside op)
  | arith op => exact hvalue (tracks_arith hcs hinside op)
  | _ => first | exact hall | exact absurd hk hscope | (rw [hk] at hkind; cases hkind)

end Emit

/-! ## Labels that are the same -/

/-- All lines may be added, and the labels made so far are as many. -/
structure Comparison.Free (K : Comparison) : Prop where
  line (l : Line) : K.Takes l
  labels {s s' : EmitState} : K.states s s' → s'.labels = s.labels
  setLabels {s s' : EmitState} (k : Nat) : K.states s s' →
    K.states { s with labels := k } { s' with labels := k } ∧ K.adds s { s with labels := k }

namespace Comparison.Free

variable {K : Comparison} (h : K.Free) {α β : Type} {A : α → β → Prop}

include h

theorem place (l : Label) : K.Tracks Eq (Emit.place l) (Emit.place l) := (h.line _).tracks

theorem instr (i : Instr) : K.Tracks Eq (Emit.instr i) (Emit.instr i) := (h.line _).tracks

theorem lines (ls : List Line) : K.Tracks Eq (Emit.lines ls) (Emit.lines ls) := by
  induction ls with
  | nil => exact .pure rfl
  | cons l ls ih => exact .andThen (h.line l).tracks fun _ => ih

theorem instrs (is : List Instr) : K.Tracks Eq (Emit.instrs is) (Emit.instrs is) := by
  induction is with
  | nil => exact .pure rfl
  | cons i is ih => exact .andThen (h.instr i) fun _ => ih

theorem newLabel (use : LabelUse) : K.Tracks Eq (Emit.newLabel use) (Emit.newLabel use) := by
  intro s s' hs
  obtain ⟨hstates, hadds⟩ := h.setLabels (s.labels + 1) hs
  refine ⟨fun l t hr => ?_, fun _ e t hr => by cases hr⟩
  obtain ⟨rfl, rfl⟩ : Label.numbered (s.labels + 1) use = l ∧ { s with labels := s.labels + 1 } = t := by
    cases hr
    exact ⟨rfl, rfl⟩
  refine ⟨_, _, ?_, rfl, hstates, hadds⟩
  rw [← h.labels hs]
  rfl

/-- Code that makes a label first. -/
theorem label {use : LabelUse} {f : Label → EmitM α} {f' : Label → EmitM β} (h' : ∀ l, K.Tracks A (f l) (f' l)) :
    K.Tracks A (Emit.newLabel use >>= f) (Emit.newLabel use >>= f') := .andThen (h.newLabel use) h'

theorem loops : K.Loops where
  paddedInt _ hvalue := h.label fun _ => h.label fun _ => h.label fun _ => h.label fun _ => h.label fun _ =>
    .andThen (h.instr _) fun _ => .andThen hvalue fun _ => h.lines _
  string {value value'} _ hvalue := by
    have hrest (padding : List Line) : K.Tracks Eq (Emit.outStringAfter padding value) (Emit.outStringAfter padding value') :=
      h.label fun _ => h.label fun _ => .andThen (h.instr _) fun _ => .andThen hvalue fun _ => h.lines _
    refine .ite .rfl (fun _ => .andThen ?_ hrest) fun _ => .andThen (.pure rfl) hrest
    exact h.label fun _ => h.label fun _ => h.label fun _ => h.label fun _ => .pure rfl
  scan hvalue := h.label fun _ => h.label fun _ => .andThen hvalue fun _ => h.lines _

variable {cs cs' : List Coder} {s s' : Setting}

theorem choice (hcs : List.Forall₂ (Coder.Like K) cs cs') (hs : s.Like K s') :
    K.Tracks Eq (Emit.choice cs s) (Emit.choice cs' s') := by
  have hinside := hs.withAddress false
  refine h.label fun _ => h.label fun _ => .bind (Emit.tracks_nth hcs 0) fun _ _ hcondition =>
    .andThen (hcondition.run hinside) fun _ => .same hcondition.cell fun _ _ => .andThen (h.instrs _) fun _ =>
      .bind (Emit.tracks_nth hcs 1) fun _ _ hfirst => .andThen (hfirst.run hinside) fun _ => ?_
  match hcs with
  | .nil | .cons _ .nil | .cons _ (.cons _ .nil) | .cons _ (.cons _ (.cons _ (.cons _ _))) => exact h.place _
  | .cons _ (.cons _ (.cons hsecond .nil)) =>
    exact .andThen (h.instr _) fun _ => .andThen (h.place _) fun _ => .andThen (hsecond.run hinside) fun _ => h.place _

end Comparison.Free

/-! ## What the code of a tree meets -/

mutual

theorem Node.rename_id (n : Node) : n.rename (fun x => x) = n := by
  match n with
  | .mk id kind o cs => cases kind <;> simp [rename, Kind.rename, renameAll_id cs]

theorem Node.renameAll_id (ns : List Node) : renameAll (fun x => x) ns = ns := by
  match ns with
  | [] => rfl
  | n :: ns => rw [renameAll, rename_id n, renameAll_id ns]

end

theorem Node.renamed_self (n : Node) : Renamed (fun x => x) n n := by
  have h := renamed_rename (f := fun x => x) n
  rwa [rename_id] at h

section

variable {F : Nat → List Line → Nat → Prop} {again after : Option Label} {setting : Setting} {n : Node} {m m' : EmitM Unit}

/-- A code maker beside itself, where the lines that it adds meet a condition. -/
def Admits.beside (hF : Admits F) (again after : Option Label) : Comparison where
  rename x := x
  nodes := Eq
  jumps a b := a = again ∧ b = after
  states := Eq
  adds s t := ∃ ls, t.code.toList = s.code.toList ++ ls ∧ F s.labels ls t.labels
  faults := False
  renamed h := h ▸ Node.renamed_self _
  refl s := ⟨[], by simp, hF.nil _⟩
  trans := by
    rintro s t u ⟨ls, hls, hF1⟩ ⟨ls', hls', hF2⟩
    exact ⟨ls ++ ls', by rw [hls', hls, List.append_assoc], hF.append _ _ _ _ _ hF1 hF2⟩
  instr hi hs := ⟨hs ▸ rfl, [.instr _], by simp [EmitState.push], hF.instr _ hi _⟩
  address _ hs := hs ▸ rfl
  level _ hs := hs ▸ rfl
  strings hs := hs ▸ rfl
  called _ hs := hs ▸ ⟨fun _ h => h, fun _ => rfl⟩
  same hfaults := hfaults.elim

theorem Admits.tracks_iff (hF : Admits F) :
    (hF.beside again after).Tracks Eq m m' ↔ Writes F m ∧ ∀ s u t, Runs m s u t → Runs m' s u t := by
  refine ⟨fun h => ⟨fun s u t hr => ?_, fun s u t hr => ?_⟩, fun ⟨hwrites, hruns⟩ s s' hs => ⟨fun u t hr => ?_, fun hfaults => hfaults.elim⟩⟩
  · obtain ⟨_, _, -, -, -, hadds⟩ := (h s s rfl).1 u t hr
    exact hadds
  · obtain ⟨_, _, hr', rfl, rfl, -⟩ := (h s s rfl).1 u t hr
    exact hr'
  · obtain rfl : s = s' := hs
    exact ⟨u, t, hruns s u t hr, rfl, rfl, hwrites s u t hr⟩

theorem Admits.tracks_self (hF : Admits F) (h : Writes F m) : (hF.beside again after).Tracks Eq m m :=
  hF.tracks_iff.2 ⟨h, fun _ _ _ hr => hr⟩

theorem Admits.setting_like (hF : Admits F) (hagain : setting.again = again) (hafter : setting.after = after) :
    setting.Like (hF.beside again after) setting :=
  ⟨rfl, rfl, rfl, List.forall₂_same.2 fun _ _ => rfl, hagain, hafter⟩

mutual

theorem Admits.like_of_meets (hF : Admits F) (c : Coder) (h : c.Meets F again after) : c.Like (hF.beside again after) c := by
  match c with
  | .mk n run cs =>
    refine .mk rfl (fun s s' hs => ?_) (likeAll_of_meets hF cs h.2)
    obtain rfl := hs.eq fun _ _ h => h
    exact hF.tracks_self (h.1 s hs.jumps.1 hs.jumps.2)

theorem Admits.likeAll_of_meets (hF : Admits F) (cs : List Coder) (h : Coder.MeetsAll F again after cs) :
    List.Forall₂ (Coder.Like (hF.beside again after)) cs cs := by
  match cs with
  | [] => exact .nil
  | c :: cs => exact .cons (like_of_meets hF c h.1) (likeAll_of_meets hF cs h.2)

end

namespace Emit

theorem writes_dropping (hF : Admits F) (h : Writes F m) : Writes F (dropping n setting m) :=
  (hF.tracks_iff.1 (tracks_dropping (K := hF.beside setting.again setting.after) rfl (hF.setting_like rfl rfl) (hF.tracks_self h))).1

/-- A condition that also holds of the code of input and output, which has labels of its own. -/
structure AdmitsLoops (F : Nat → List Line → Nat → Prop) : Prop extends Admits F where
  paddedInt : ∀ width value, Writes F value → Writes F (outPaddedInt width value)
  string : ∀ width value, Writes F value → Writes F (outString width value)
  scan : ∀ value, Writes F value → Writes F (scanString value)

variable {cs : List Coder} (hF : AdmitsLoops F)

include hF

theorem AdmitsLoops.loops : (hF.beside again after).Loops := by
  -- what is known of the lines is given; that the same is done is the case in which nothing is asked of the lines
  have hany : Admits fun _ _ _ => True := { nil _ := trivial, append _ _ _ _ _ _ _ := trivial, instr _ _ _ := trivial }
  have hfree : (hany.beside again after).Free := by
    refine ⟨fun l s s' hs => ⟨hs ▸ rfl, [l], by simp [EmitState.push], trivial⟩, fun hs => hs ▸ rfl, fun k hs => ?_⟩
    exact ⟨hs ▸ rfl, [], by simp, trivial⟩
  have hinto : ∀ {value value'}, (hF.beside again after).Tracks Eq value value' → (hany.beside again after).Tracks Eq value value' :=
    fun h => hany.tracks_iff.2 ⟨(hF.tracks_iff.1 h).1.mono fun _ _ _ _ => trivial, (hF.tracks_iff.1 h).2⟩
  have hback : ∀ {m m'}, Writes F m → (hany.beside again after).Tracks Eq m m' → (hF.beside again after).Tracks Eq m m' :=
    fun hm h => hF.tracks_iff.2 ⟨hm, (hany.tracks_iff.1 h).2⟩
  exact {
    paddedInt width h := hback (hF.paddedInt width _ (hF.tracks_iff.1 h).1) (hfree.loops.paddedInt width (hinto h))
    string width h := hback (hF.string width _ (hF.tracks_iff.1 h).1) (hfree.loops.string width (hinto h))
    scan h := hback (hF.scan _ (hF.tracks_iff.1 h).1) (hfree.loops.scan (hinto h)) }

theorem writes_runAll (hcs : Coder.MeetsAll F setting.again setting.after cs) : Writes F (runAll setting cs) :=
  hF.runAll fun _ hc => (meets_of_mem hcs hc).run rfl rfl

theorem writes_statements {above : List Node} (hcs : Coder.MeetsAll F setting.again setting.after cs) :
    Writes F (statements cs above setting) :=
  hF.when (silent_onTable _ |>.writes hF.nil) fun _ => hF.bind (writes_runAll hF hcs) fun _ =>
    .ite (fun _ => silent_onTable _ |>.writes hF.nil) fun _ => hF.pure _

theorem writes_reserve : Writes F reserve := by
  refine .get fun s => ?_
  split
  · exact hF.one trivial
  · exact .throw _

/-- The code of a node that is not about control. -/
theorem writes_codeOf (hkind : isControl n.kind = false) (hcs : Coder.MeetsAll F setting.again setting.after cs)
    (hcup : ∀ called f pieces, n.kind = .call called (some f) pieces → f.isLibrary = false →
      ∀ k i, F i [.instr (.cup k (.function f.name))] i) : Writes F (codeOf n cs setting) := by
  by_cases hscope : n.kind = .statements
  · unfold codeOf
    rw [hscope]
    exact writes_statements hF hcs
  · have hA := hF.toAdmits
    refine (hA.tracks_iff.1 (tracks_codeOf (K := hA.beside setting.again setting.after) hF.loops rfl (hA.likeAll_of_meets cs hcs)
      (hA.setting_like rfl rfl) hkind hscope fun called f pieces hcall hlibrary k s s' hs => ?_)).1
    exact ⟨hs ▸ rfl, [.instr _], by simp [EmitState.push], hcup called f pieces hcall hlibrary k _⟩

end Emit

end

end MiniC
