import MiniC.Proofs.Code.Constructs

/-!
# Code makers that agree

`Agree I J m m'` says of two code makers that they do the same from every state whose table meets the condition `I`,
and that the table meets `J` when they have come to their end. Each construct agrees with itself for coders that
agree.
-/

namespace MiniC

open SymbolTable

/-- Two code makers do the same from every table with one condition, and lead to tables with another. -/
def Agree {α : Type} (I J : SymbolTable → Prop) (m m' : EmitM α) : Prop :=
  ∀ s, I s.table → outcome m s = outcome m' s ∧ ∀ a s', Runs m s a s' → J s'.table

def Steady {α : Type} (m : EmitM α) : Prop := ∀ s a s', Runs m s a s' → s'.table = s.table

section

variable {α β : Type} {I I' J K : SymbolTable → Prop} {m m' : EmitM α} {f f' : α → EmitM β}

theorem Steady.agree (h : Steady m) : Agree I I m m := fun s hs => ⟨rfl, fun a s' hr => by rw [h s a s' hr]; exact hs⟩

theorem Agree.mono (h : Agree I J m m') (hI : ∀ t, I' t → I t) (hJ : ∀ t, J t → K t) : Agree I' K m m' := fun s hs =>
  ⟨(h s (hI _ hs)).1, fun a s' hr => hJ _ ((h s (hI _ hs)).2 a s' hr)⟩

theorem Agree.bind (h : Agree I J m m') (h' : ∀ a, Agree J K (f a) (f' a)) : Agree I K (m >>= f) (m' >>= f') := by
  intro s hs
  obtain ⟨hsame, hafter⟩ := h s hs
  refine ⟨?_, fun b s' hr => ?_⟩
  · rw [outcome_bind, outcome_bind, ← hsame]
    rcases hm : outcome m s with ⟨e | a, s1⟩
    · rfl
    · exact (h' a s1 (hafter a s1 hm)).1
  · obtain ⟨a, s1, hm, hf⟩ := runs_bind.1 hr
    exact (h' a s1 (hafter a s1 hm)).2 b s' hf

theorem Agree.after (h : Agree I J m m') (h' : ∀ a, Steady (f a)) : Agree I J (m >>= f) (m' >>= f) :=
  h.bind fun a => (h' a).agree

theorem Agree.steady {k : EmitM β} {g g' : β → EmitM α} (hk : Steady k) (h : ∀ b, Agree I J (g b) (g' b)) :
    Agree I J (k >>= g) (k >>= g') := hk.agree.bind h

theorem Agree.lift {e e' : Except Fault α} (he : e' = e) (h : ∀ a, e = .ok a → Agree I J (f a) (f' a)) :
    Agree I J (Emit.lift e >>= f) (Emit.lift e' >>= f') := by
  rw [he]
  cases e with
  | error x => exact fun _ _ => ⟨rfl, fun _ _ hr => by simp at hr⟩
  | ok a => exact h a rfl

theorem Agree.state {f f' : EmitState → EmitM α} (h : ∀ s, I s.table → Agree (· = s.table) J (f s) (f' s)) :
    Agree I J (get >>= f) (get >>= f') := fun s hs =>
  ⟨by rw [outcome_bind, outcome_bind]; exact (h s hs s rfl).1, fun a s' hr => (h s hs s rfl).2 a s' (runs_get_bind.1 hr)⟩

theorem Agree.read {f f' : EmitState → EmitM α} (h : ∀ s, Agree I J (f s) (f' s)) :
    Agree I J (get >>= f) (get >>= f') := .state fun s hs => (h s).mono (fun _ ht => ht ▸ hs) fun _ ht => ht

theorem Agree.ite {c : Prop} [Decidable c] {k k' : EmitM α} (h : c → Agree I J m m') (h' : ¬ c → Agree I J k k') :
    Agree I J (if c then m else k) (if c then m' else k') := by
  split
  next hc => exact h hc
  next hc => exact h' hc

theorem Agree.forIn₂ {γ : Type} {R : γ → γ → Prop} {as as' : List γ} {f f' : γ → PUnit → EmitM (ForInStep PUnit)}
    (has : List.Forall₂ R as as') (h : ∀ a a', R a a' → Agree I I (f a ⟨⟩) (f' a' ⟨⟩)) :
    Agree I I (forIn as PUnit.unit f) (forIn as' PUnit.unit f') := by
  induction has with
  | nil => exact Steady.agree fun s a s' hr => by rw [(runs_pure.1 hr).2]
  | cons ha _ ih =>
    rw [List.forIn_cons, List.forIn_cons]
    refine (h _ _ ha).bind fun r => ?_
    cases r with
    | done u => exact Steady.agree fun s a s' hr => by rw [(runs_pure.1 hr).2]
    | yield u => exact ih

/-! ## What leaves the table as it is -/

theorem steady_pure (a : α) : Steady (pure a) := fun s b s' hr => by rw [(runs_pure.1 hr).2]

theorem Steady.bind (h : Steady m) (h' : ∀ a, Steady (f a)) : Steady (m >>= f) := by
  intro s b s' hr
  obtain ⟨a, s1, hm, hf⟩ := runs_bind.1 hr
  exact (h' a s1 b s' hf).trans (h s a s1 hm)

theorem steady_throw (e : Fault) : Steady (throw e : EmitM α) := fun _ _ _ hr => (runs_throw.1 hr).elim

theorem steady_lift (e : Except Fault α) : Steady (Emit.lift e) := fun s a s' hr => by rw [(runs_emit_lift.1 hr).2]

theorem steady_get : Steady get := fun s a s' hr => by rw [(runs_get.1 hr).2]

theorem steady_line (l : Line) : Steady (Emit.line l) := fun s u s' hr => by rw [runs_modify.1 hr]

theorem steady_instr (i : Instr) : Steady (Emit.instr i) := steady_line _

theorem steady_place (l : Label) : Steady (Emit.place l) := steady_line _

theorem steady_instrs (is : List Instr) : Steady (Emit.instrs is) := by
  induction is with
  | nil => exact steady_pure _
  | cons i is ih => exact .bind (steady_instr i) fun _ => ih

theorem steady_newLabel (use : LabelUse) : Steady (Emit.newLabel use) := by
  intro s l s' hr
  have hrest := runs_get_bind.1 hr
  have hrest := runs_set_bind.1 hrest
  rw [(runs_pure.1 hrest).2]

theorem steady_offsetOf (v : Option Nat) : Steady (Emit.offsetOf v) := by
  refine .bind steady_get fun s => ?_
  split
  · exact steady_pure _
  · exact steady_throw _

theorem Steady.forIn {γ : Type} {as : List γ} {f : γ → PUnit → EmitM (ForInStep PUnit)} (h : ∀ a ∈ as, Steady (f a ⟨⟩)) :
    Steady (forIn as PUnit.unit f) := by
  induction as with
  | nil => exact steady_pure _
  | cons a as ih =>
    rw [List.forIn_cons]
    refine .bind (h a List.mem_cons_self) fun r => ?_
    cases r with
    | done u => exact steady_pure _
    | yield u => exact ih fun b hb => h b (List.mem_cons_of_mem a hb)

end

/-! ## Coders that agree -/

/-- Two code makers with one tree, from one state whose table meets a condition. -/
def agreeing (I : SymbolTable → Prop) : Comparison where
  rename := id
  nodes := Eq
  jumps _ _ := True
  states s s' := s' = s ∧ I s.table
  adds _ _ := True
  faults := True
  renamed h := h ▸ Node.renamed_self _
  refl _ := trivial
  trans _ _ := trivial
  instr _ hs := ⟨⟨hs.1 ▸ rfl, hs.2⟩, trivial⟩
  address _ hs := hs.1 ▸ rfl
  level _ hs := hs.1 ▸ rfl
  strings hs := hs.1 ▸ rfl
  called _ hs := hs.1 ▸ ⟨fun _ h => h, fun _ => rfl⟩
  same _ hs := hs.1

section

variable {I : SymbolTable → Prop} {c c' : Coder} {n : Node}

theorem agreeing_free : (agreeing I).Free where
  line _ _ _ hs := ⟨⟨hs.1 ▸ rfl, hs.2⟩, trivial⟩
  labels hs := hs.1 ▸ rfl
  setLabels _ hs := ⟨⟨hs.1 ▸ rfl, hs.2⟩, trivial⟩

theorem agree_iff {m m' : EmitM Unit} : Agree I I m m' ↔ (agreeing I).Tracks Eq m m' := by
  refine ⟨fun h s s' hs => ?_, fun h s hs => ?_⟩
  · obtain ⟨rfl, hs⟩ := hs
    obtain ⟨hsame, hafter⟩ := h s' hs
    exact ⟨fun a t hr => ⟨a, t, hsame.symm.trans hr, rfl, ⟨rfl, hafter a t hr⟩, trivial⟩, fun _ e t hr => hsame.symm.trans hr⟩
  · obtain ⟨hruns, hfails⟩ := h s s ⟨rfl, hs⟩
    refine ⟨?_, fun a t hr => ?_⟩
    · rcases hm : outcome m s with ⟨e | a, t⟩
      · exact (hfails trivial e t hm).symm
      · obtain ⟨_, _, hr', rfl, ⟨rfl, -⟩, -⟩ := hruns a t hm
        exact hr'.symm
    · obtain ⟨_, _, -, -, ⟨-, ht⟩, -⟩ := hruns a t hr
      exact ht

theorem agreeing_setting (setting : Setting) : setting.Like (agreeing I) setting :=
  ⟨rfl, rfl, rfl, List.forall₂_same.2 fun _ _ => rfl, trivial⟩

/-- Two coders of one node that do the same, and leave tables with a condition in it; so do those of the children. -/
abbrev Coder.Match (I : SymbolTable → Prop) : Coder → Coder → Prop := Coder.Like (agreeing I)

namespace Coder.Match

theorem mk {r r' : Setting → EmitM Unit} {cs cs' : List Coder} (hrun : ∀ setting, Agree I I (r setting) (r' setting))
    (hcs : List.Forall₂ (Coder.Match I) cs cs') : Coder.Match I (.mk n r cs) (.mk n r' cs') :=
  Coder.Like.mk rfl (fun s s' hs => by rw [← hs.eq fun _ _ h => h]; exact agree_iff.1 (hrun s)) hcs

theorem run (h : Coder.Match I c c') (setting : Setting) : Agree I I (c.run setting) (c'.run setting) :=
  agree_iff.2 (Coder.Like.run h (agreeing_setting setting))

theorem cell (h : Coder.Match I c c') : Emit.cell c' = Emit.cell c := Coder.Like.cell h

end Coder.Match

end

namespace Emit

variable {I J : SymbolTable → Prop} {setting : Setting} {n : Node} {cs cs' : List Coder}

theorem agree_dropping {make make' : EmitM Unit} (h : Agree I I make make') :
    Agree I I (dropping n setting make) (dropping n setting make') :=
  agree_iff.2 (tracks_dropping (K := agreeing I) rfl (agreeing_setting _) (agree_iff.1 h))

theorem agree_declarator {head : DeclaratorHead} (hcs : List.Forall₂ (Coder.Match I) cs cs') :
    Agree I I (declarator n head cs setting) (declarator n head cs' setting) := by
  have h := agree_iff.2 (tracks_declarator (K := agreeing I) (n := n) rfl hcs (agreeing_setting setting) head)
  rwa [show head.name.map (agreeing I).rename = head.name from Option.map_id_apply] at h

/-! ## Statements -/

section

variable {I1 J1 K : SymbolTable → Prop} {c d e c' d' e' : Coder}

/-- Two coders do the same in all settings that differ from one only in the loop around, and in whether an address is
wanted. -/
def AgreeIn (above : List Node) (I J : SymbolTable → Prop) (c c' : Coder) : Prop :=
  ∀ address again after, Agree I J (c.run { address, again, after, above }) (c'.run { address, again, after, above })

theorem agree_choice₂ (hc : Coder.Match I c c') (hd : AgreeIn setting.above I J d d') :
    Agree I J (choice [c, d] setting) (choice [c', d'] setting) :=
  .steady (steady_newLabel _) fun _ => .steady (steady_newLabel _) fun _ => (hc.run _).bind fun _ => .lift hc.cell fun _ _ =>
    .steady (steady_instrs _) fun _ => (hd _ _ _).after fun _ => steady_place _

theorem agree_choice₃ (hc : Coder.Match I c c') (hd : AgreeIn setting.above I J d d') (he : AgreeIn setting.above J K e e') :
    Agree I K (choice [c, d, e] setting) (choice [c', d', e'] setting) :=
  .steady (steady_newLabel _) fun _ => .steady (steady_newLabel _) fun _ => (hc.run _).bind fun _ => .lift hc.cell fun _ _ =>
    .steady (steady_instrs _) fun _ => (hd _ _ _).bind fun _ => .steady (steady_instr _) fun _ =>
      .steady (steady_place _) fun _ => (he _ _ _).after fun _ => steady_place _

theorem agree_whileLoop (hc : Coder.Match I c c') (hd : AgreeIn setting.above I J d d') :
    Agree I J (whileLoop [c, d] setting) (whileLoop [c', d'] setting) :=
  .steady (steady_newLabel _) fun _ => .steady (steady_newLabel _) fun _ => .steady (steady_place _) fun _ =>
    (hc.run _).bind fun _ => .lift hc.cell fun _ _ => .steady (steady_instrs _) fun _ => (hd _ _ _).bind fun _ =>
      .steady (steady_instr _) fun _ => (steady_place _).agree

/-- The condition of the loop is coded before the body and behind it. -/
theorem agree_doWhile (hd : AgreeIn setting.above I J d d') (hc : Coder.Match I c c') (hc' : Coder.Match J c c') :
    Agree I J (doWhile [d, c] setting) (doWhile [d', c'] setting) :=
  .steady (steady_newLabel _) fun _ => .steady (steady_newLabel _) fun _ => (hc.run _).bind fun _ => .lift hc.cell fun _ _ =>
    .steady (steady_instr _) fun _ => .steady (steady_place _) fun _ => (hd _ _ _).bind fun _ =>
      .steady (steady_instr _) fun _ => (hc'.run _).bind fun _ => .steady (steady_instr _) fun _ => (steady_place _).agree

theorem agree_forLoop {a b c : Bool} {p p' q q' r r' : Option Coder} {body body' : Coder}
    (hheader : headerCoders a b c cs = (p, q, r, [body])) (hheader' : headerCoders a b c cs' = (p', q', r', [body']))
    (hopen : Agree I I1 (onTable (openScope false none)) (onTable (openScope false none)))
    (hp : Option.Rel (AgreeIn setting.above I1 I1) p p')
    (hq : Option.Rel (Coder.Match I1) q q') (hbody : AgreeIn setting.above I1 J1 body body')
    (hr : Option.Rel (Coder.Match J1) r r')
    (hclose : Agree J1 J (onTable closeScope) (onTable closeScope)) :
    Agree I J (forLoop a b c cs setting) (forLoop a b c cs' setting) := by
  have hfirst : ∀ again after, Agree I1 I1 (runOption { setting with again, after } p)
      (runOption { setting with again, after } p') := by
    intro again after
    cases hp with
    | none => exact (steady_pure _).agree
    | some hp => exact hp _ _ _
  have hstep : ∀ st, Agree J1 J1 (runOption st r) (runOption st r') := by
    intro st
    cases hr with
    | none => exact (steady_pure _).agree
    | some hr => exact hr.run st
  have hrest : ∀ (again test after : Label), Agree I1 J (do
      instr (.fjp after)
      runAll { setting with again := some again, after := some after } [body]
      place again
      runOption { setting with again := some again, after := some after } r
      instr (.ujp test)
      place after
      onTable closeScope) (do
      instr (.fjp after)
      runAll { setting with again := some again, after := some after } [body']
      place again
      runOption { setting with again := some again, after := some after } r'
      instr (.ujp test)
      place after
      onTable closeScope) := fun again test after =>
    .steady (steady_instr _) fun _ => .bind ((hbody _ _ _).after fun _ => steady_pure _) fun _ =>
      .steady (steady_place _) fun _ => (hstep _).bind fun _ => .steady (steady_instr _) fun _ => .steady (steady_place _) fun _ =>
        hclose
  unfold forLoop
  rw [hheader, hheader']
  refine .steady (steady_newLabel _) fun again => .steady (steady_newLabel _) fun test => .steady (steady_newLabel _) fun after =>
    hopen.bind fun _ => (hfirst _ _).bind fun _ => .steady (steady_place _) fun _ => ?_
  cases hq with
  | none => exact .steady (steady_instr _) fun _ => hrest again test after
  | some hc =>
    exact (hc.run _).bind fun _ => .lift hc.cell fun cell _ => .steady (steady_instr _) fun _ => hrest again test after

theorem agree_returnStmt (hcs : List.Forall₂ (Coder.Match I) cs cs') :
    Agree I I (returnStmt cs setting) (returnStmt cs' setting) :=
  agree_iff.2 (tracks_returnStmt hcs (agreeing_setting setting))

theorem steady_reserve : Steady reserve := by
  refine .bind steady_get fun s => ?_
  split
  · exact steady_instr _
  · exact steady_throw _

theorem agree_function {head : FunctionHead} (hcs : cs.filter (·.node.kind != .parameters) = [d])
    (hcs' : cs'.filter (·.node.kind != .parameters) = [d'])
    (hopen : Agree I I1 (onTable (openScope true head.name)) (onTable (openScope true head.name)))
    (hd : AgreeIn setting.above I1 J1 d d')
    (hclose : Agree J1 J (onTable closeScope) (onTable closeScope)) :
    Agree I J (function head cs setting) (function head cs' setting) := by
  unfold function
  rw [hcs, hcs']
  refine hopen.bind fun _ => .steady (steady_line _) fun _ => .steady (steady_place _) fun _ => .steady steady_reserve fun _ =>
    .bind ((hd _ _ _).after fun _ => steady_pure _) fun _ => ?_
  exact .ite (fun _ => .steady (steady_instr _) fun _ => hclose) fun _ => .steady (steady_instr _) fun _ => hclose

end

end Emit

end MiniC
