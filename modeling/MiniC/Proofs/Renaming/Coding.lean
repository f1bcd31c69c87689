import MiniC.Proofs.Code.Constructs
import MiniC.Proofs.Renaming.Scopes

/-!
# Code under other names

The same code is made from a tree with other names of variables: coders follow each other whose trees are the same up to
names. Only calls look up a name in the table, and that of a function.
-/

namespace MiniC

open SymbolTable

open Node (Renamed RenamedAll)

/-- The same code has been made, with tables that are the same up to names. -/
structure EmitState.Alike (r : Renaming) (s s' : EmitState) : Prop where
  table : s.table.Alike r s'.table
  labels : s'.labels = s.labels
  code : s'.code = s.code

/-- Two code makers do the same under other names. -/
abbrev Copies (r : Renaming) {α : Type} (m m' : EmitM α) : Prop := Mirrors (EmitState.Alike r) Eq m m'

/-- A function that is called is found under other names too. -/
theorem SymbolTable.Alike.calledDepth {r : Renaming} {t t' : SymbolTable} (h : t.Alike r t') {called : Option String} {d : Int}
    (hd : t.calledDepth? called = some d) : t'.calledDepth? called = some d := by
  unfold calledDepth? at hd ⊢
  cases hlookup : t.lookup called 1 with
  | none => simp [hlookup] at hd
  | some v =>
    have hlookup' := h.lookup hlookup
    have halike := h.symbol v
    cases hsymbol : t.symbol v with
    | object o => simp [hlookup, hsymbol] at hd
    | function g =>
      rw [hsymbol] at hlookup' halike
      rw [hlookup, Option.map_some, hsymbol] at hd
      rw [show t'.lookup called 1 = some v from hlookup', Option.map_some]
      generalize t'.symbol v = x at halike ⊢
      cases halike
      exact hd

theorem EmitState.Alike.push {r : Renaming} {s s' : EmitState} (h : s.Alike r s') (l : Line) : (s.push l).Alike r (s'.push l) :=
  ⟨h.table, h.labels, congrArg (·.push l) h.code⟩

/-- Two code makers whose trees and tables are the same up to names. -/
abbrev Renaming.comparison (r : Renaming) : Comparison where
  rename := r.map
  nodes := Renamed r.map
  jumps _ _ := True
  states := EmitState.Alike r
  adds _ _ := True
  faults := False
  renamed h := h
  refl _ := trivial
  trans _ _ := trivial
  instr _ hs := ⟨hs.push _, trivial⟩
  address v hs := (hs.table.symbol v).address
  level v hs := hs.table.levelOf v
  strings hs := hs.table.strings
  called _ hs := ⟨fun _ => hs.table.calledDepth, False.elim⟩
  same h := h.elim

theorem Renaming.free (r : Renaming) : r.comparison.Free where
  line _ _ _ hs := ⟨hs.push _, trivial⟩
  labels hs := hs.labels
  setLabels _ hs := ⟨⟨hs.table, rfl, hs.code⟩, trivial⟩

namespace Emit

variable {r : Renaming}

theorem tracks_onTable {α : Type} {op op' : TableM α} (h : Mirrors (SymbolTable.Alike r) Eq op op') :
    r.comparison.Tracks Eq (onTable op) (onTable op') := by
  refine fun s s' hs => ⟨fun a u hr => ?_, fun hfaults => hfaults.elim⟩
  obtain ⟨t, ht, rfl⟩ := runs_emit_onTable.1 hr
  obtain ⟨b, t', ht', hab, halike⟩ := h _ _ _ _ hs.table ht
  exact ⟨b, _, runs_emit_onTable.2 ⟨t', ht', rfl⟩, hab, ⟨halike, hs.labels, hs.code⟩, trivial⟩

theorem tracks_openScope (isFunction : Bool) (name : Option String) :
    r.comparison.Tracks Eq (onTable (openScope isFunction name)) (onTable (openScope isFunction name)) :=
  tracks_onTable (mirrors_openScope isFunction name)

theorem tracks_closeScope : r.comparison.Tracks Eq (onTable closeScope) (onTable closeScope) :=
  tracks_onTable mirrors_closeScope

theorem tracks_reserve : r.comparison.Tracks Eq reserve reserve := by
  refine .bind .get fun s s' hs => ?_
  rw [hs.table.current]
  split
  · rw [hs.table.cellsOf]
    exact r.free.instr _
  · exact .throw _

theorem tracks_storeLiteral (codes : List Nat) (address : Int) :
    r.comparison.Tracks Eq (storeLiteral codes address) (storeLiteral codes address) := by
  refine .andThen (.forIn (List.forall₂_same.2 fun _ _ => rfl) ?_) fun _ => .ite .rfl (fun _ => r.free.instrs _) fun _ => .pure rfl
  rintro i _ rfl
  exact .andThen (r.free.instrs _) fun _ => .pure rfl

theorem tracks_jump (target : Option Label) : r.comparison.Tracks Eq (jump target) (jump target) := by
  cases target with
  | none => exact .throw _
  | some l => exact r.free.instr _

/-! ## Statements -/

section

variable {s s' : Setting} {cs cs' : List Coder} (hcs : List.Forall₂ (Coder.Like r.comparison) cs cs') (hs : s.Like r.comparison s')

include hcs hs

theorem tracks_whileLoop : r.comparison.Tracks Eq (whileLoop cs s) (whileLoop cs' s') := by
  refine r.free.label fun again => r.free.label fun after => .andThen (r.free.place _) fun _ => ?_
  have hinside := hs.inLoop (some again) (some after) trivial
  refine .bind (tracks_nth hcs 0) fun _ _ hcondition => .andThen (hcondition.run hinside) fun _ => .same hcondition.cell fun _ _ => ?_
  exact .andThen (r.free.instrs _) fun _ => .bind (tracks_nth hcs 1) fun _ _ hbody => .andThen (hbody.run hinside) fun _ =>
    .andThen (r.free.instr _) fun _ => r.free.place _

theorem tracks_doWhile : r.comparison.Tracks Eq (doWhile cs s) (doWhile cs' s') :=
  r.free.label fun _ => r.free.label fun _ => .bind (tracks_nth hcs 1) fun _ _ hcondition =>
    .andThen (hcondition.run hs) fun _ => .same hcondition.cell fun _ _ => .andThen (r.free.instr _) fun _ =>
      .andThen (r.free.place _) fun _ => .bind (tracks_nth hcs 0) fun _ _ hbody => .andThen (hbody.run hs) fun _ =>
        .andThen (r.free.instr _) fun _ => .andThen (hcondition.run hs) fun _ => .andThen (r.free.instr _) fun _ => r.free.place _

omit hcs in
theorem tracks_runOption {c c' : Option Coder} (hc : Option.Rel (Coder.Like r.comparison) c c') :
    r.comparison.Tracks Eq (runOption s c) (runOption s' c') := by
  cases hc with
  | none => exact .pure rfl
  | some hc => exact hc.run hs

omit hs in
theorem headerCoders_alike (a b c : Bool) :
    Option.Rel (Coder.Like r.comparison) (headerCoders a b c cs).1 (headerCoders a b c cs').1 ∧
      Option.Rel (Coder.Like r.comparison) (headerCoders a b c cs).2.1 (headerCoders a b c cs').2.1 ∧
      Option.Rel (Coder.Like r.comparison) (headerCoders a b c cs).2.2.1 (headerCoders a b c cs').2.2.1 ∧
      List.Forall₂ (Coder.Like r.comparison) (headerCoders a b c cs).2.2.2 (headerCoders a b c cs').2.2.2 := by
  have hpart : ∀ (wanted : Bool) (i : Nat), Option.Rel (Coder.Like r.comparison) (if wanted then cs[i]? else none)
      (if wanted then cs'[i]? else none) := fun wanted i => by
    split
    · exact rel_getElem? hcs i
    · exact .none
  exact ⟨hpart a _, hpart b _, hpart c _, List.forall₂_drop _ hcs⟩

theorem tracks_forLoop (a b c : Bool) : r.comparison.Tracks Eq (forLoop a b c cs s) (forLoop a b c cs' s') := by
  have hheader := headerCoders_alike hcs a b c
  unfold forLoop
  generalize headerCoders a b c cs = header at hheader ⊢
  generalize headerCoders a b c cs' = header' at hheader ⊢
  obtain ⟨initializer, condition, iteration, body⟩ := header
  obtain ⟨initializer', condition', iteration', body'⟩ := header'
  obtain ⟨hinitializer, hcondition, hiteration, hbody⟩ := hheader
  refine r.free.label fun again => r.free.label fun test => r.free.label fun after => ?_
  have hinside := hs.inLoop (some again) (some after) trivial
  refine .andThen (tracks_openScope false none) fun _ =>
    .andThen (tracks_runOption hinside hinitializer) fun _ => .andThen (r.free.place _) fun _ => ?_
  cases hcondition
  case' none => refine .andThen (r.free.instr _) fun _ => ?_
  case' some hc => refine .andThen (hc.run hinside) fun _ => .same hc.cell fun _ _ => .andThen (r.free.instr _) fun _ => ?_
  all_goals
    exact .andThen (r.free.instr _) fun _ => .andThen (tracks_runAll hbody hinside) fun _ => .andThen (r.free.place _) fun _ =>
      .andThen (tracks_runOption hinside hiteration) fun _ => .andThen (r.free.instr _) fun _ => .andThen (r.free.place _) fun _ =>
        tracks_closeScope

theorem tracks_function (head : FunctionHead) : r.comparison.Tracks Eq (function head cs s) (function head cs' s') := by
  have hbody : List.Forall₂ (Coder.Like r.comparison) (cs.filter fun c => c.node.kind != .parameters)
      (cs'.filter fun c => c.node.kind != .parameters) :=
    forall₂_filter hcs fun c c' hc => by rw [bne, bne, hc.kind, Kind.rename_beq _ rfl]
  refine .andThen (tracks_openScope true head.name) fun _ => .andThen (r.free.line _).tracks fun _ =>
    .andThen (r.free.place _) fun _ => .andThen tracks_reserve fun _ => .andThen (tracks_runAll hbody hs) fun _ => ?_
  exact .ite .rfl (fun _ => .andThen (r.free.instr _) fun _ => tracks_closeScope) fun _ => .andThen (r.free.instr _) fun _ => tracks_closeScope

theorem tracks_statements {above above' : List Node} (habove : RenamedAll r.map above above') :
    r.comparison.Tracks Eq (statements cs above s) (statements cs' above' s') := by
  unfold statements
  rw [Fill.opensScope_renamed habove]
  refine .when .rfl (tracks_openScope false none) fun _ => .andThen (tracks_runAll hcs hs) fun _ => ?_
  exact .ite .rfl (fun _ => tracks_closeScope) fun _ => .pure rfl

end

/-! ## Trees -/

/-- The code of a node is the same, if that of its children is. -/
theorem tracks_renamed {n n' : Node} (hn : Renamed r.map n n') {cs cs' : List Coder} (hcs : List.Forall₂ (Coder.Like r.comparison) cs cs')
    {s s' : Setting} (hs : s.Like r.comparison s') : r.comparison.Tracks Eq (codeOf n cs s) (codeOf n' cs' s') := by
  have hinside := hs.inside (K := r.comparison) hn
  by_cases hcontrol : isControl n.kind = false ∧ n.kind ≠ .statements
  · exact tracks_codeOf r.free.loops hn hcs hs hcontrol.1 hcontrol.2 fun _ _ _ _ _ _ => r.free.line _
  unfold codeOf
  rw [hn.kind_eq]
  cases hk : n.kind with
  | function head => exact .ite .rfl (fun _ => tracks_function hcs hinside head) fun _ => tracks_runAll hcs hinside
  | statements => exact tracks_statements hcs hinside hs.above
  | breakStmt =>
    dsimp only [Kind.rename]
    rw [hs.after]
    exact tracks_jump _
  | continueStmt =>
    dsimp only [Kind.rename]
    rw [hs.again]
    exact tracks_jump _
  | ifStmt => exact r.free.choice hcs hinside
  | forLoop a b c => exact tracks_forLoop hcs hinside a b c
  | whileLoop => exact tracks_whileLoop hcs hinside
  | doWhile => exact tracks_doWhile hcs hinside
  | conditional => exact tracks_dropping (K := r.comparison) hn hs (r.free.choice hcs hinside)
  | _ => exact (hcontrol (by rw [hk]; exact ⟨rfl, nofun⟩)).elim

mutual

theorem coder_alike {n n' : Node} (hn : Renamed r.map n n') : Coder.Like r.comparison (coder n) (coder n') := by
  match n, hn with
  | .mk id kind o cs, .mk ho hcs =>
    have hchildren := coders_alike hcs
    exact .mk (.mk ho hcs) (fun s s' hs => tracks_renamed (.mk ho hcs) hchildren hs) hchildren

theorem coders_alike {ns ns' : List Node} (hns : RenamedAll r.map ns ns') :
    List.Forall₂ (Coder.Like r.comparison) (coders ns) (coders ns') := by
  match ns, hns with
  | [], .nil => exact .nil
  | n :: ns, .cons hn hns => exact .cons (coder_alike hn) (coders_alike hns)

end

/-! ## Programs -/

theorem globals_renamed {n n' : Node} (hn : Renamed r.map n n') :
    List.Forall₂ (fun p p' => Coder.Like r.comparison p.1 p'.1 ∧ RenamedAll r.map p.2 p'.2) (globals n) (globals n') := by
  refine List.rel_flatMap hn.children fun d d' hd => ?_
  have hkind := hd.kind_eq
  rw [hkind]
  cases d.kind with
  | variableDeclaration spec =>
    simp only [Kind.rename, List.forall₂_map_left_iff, List.forall₂_map_right_iff]
    refine (forall₂_filter hd.children fun e e' he => ?_).imp fun e e' he => ⟨coder_alike he, .cons hd (.cons hn .nil)⟩
    rw [he.kind_eq]
    cases e.kind <;> rfl
  | _ => exact .nil

/-- The code of a program is the same under other names. -/
theorem copies_program {n n' : Node} (hn : Renamed r.map n n') : Copies r (program n) (program n') := by
  have htracks : r.comparison.Tracks Eq (program n) (program n') := by
    refine .andThen (r.free.instrs _) fun _ => .andThen tracks_reserve fun _ => .bind .get fun s s' hs => ?_
    rw [sortedStrings, sortedStrings, hs.table.strings]
    refine .andThen (.forIn (List.forall₂_same.2 fun _ _ => rfl) ?_) fun _ => .andThen (.forIn (globals_renamed hn) ?_) fun _ =>
      .andThen (r.free.instrs _) fun _ => .andThen (.forIn hn.children ?_) fun _ => .pure rfl
    · rintro ⟨codes, v⟩ _ rfl
      exact .andThen (r.comparison.offsetOf _) fun address => .andThen (tracks_storeLiteral _ _) fun _ => .pure rfl
    · rintro ⟨c, above⟩ ⟨c', above'⟩ ⟨hc, habove⟩
      exact .andThen (hc.run ⟨rfl, rfl, rfl, habove, trivial⟩) fun _ => .pure rfl
    · intro f f' hf
      refine .ite (by rw [hf.kind_eq, Kind.isDefinition_rename]) (fun _ => ?_) fun _ => .pure rfl
      exact .andThen ((coder_alike hf).run ⟨rfl, rfl, rfl, .cons hn .nil, trivial⟩) fun _ => .pure rfl
  intro s s' a t hs hr
  obtain ⟨b, t', hr', hab, ht, -⟩ := (htracks s s' hs).1 a t hr
  exact ⟨b, t', hr', hab, ht⟩

end Emit

end MiniC
