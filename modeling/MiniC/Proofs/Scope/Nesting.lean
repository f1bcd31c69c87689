import MiniC.Proofs.Scope.Replay

/-!
# Nested scopes

Scopes are opened and closed in pairs, with other scopes and symbols between. What a name stands for inside is what was
put last into the innermost open scope that has the name, and when the pair is closed names stand for what they did before
(`lookup_nested`). A table that was filled is gone through again by the same calls: each goes to the scope that it made,
as often as one starts again from the root (`entered_again`).
-/

namespace MiniC.SymbolTable

/-- An operation on a table that is filled. -/
inductive Op where
  | openScope (isFunction : Bool) (name : Option String)
  | closeScope
  | object (o : ObjectSymbol)
  | function (f : FunctionSymbol)
  | string (raw : String) (codes : List Nat) (node : Nat) (type : CType)

namespace Op

def isScope : Op → Bool
  | openScope .. | closeScope => true
  | _ => false

def name : Op → Option String
  | object o => o.name
  | function f => f.name
  | _ => none

/-- Gives the number of the scope that was opened, or of the symbol that was put into the open scope. A variable is not
declared then. -/
def run : Op → TableM (Option Nat)
  | openScope isFunction name => do
    SymbolTable.openScope isFunction name
    return (← get).current
  | closeScope => do
    SymbolTable.closeScope
    return none
  | object o => some <$> insertObject { o with seen := 0 }
  | function f => some <$> insertFunction f
  | string raw codes node type => do
    insertString raw codes node type
    return none

def runAll : List Op → TableM (List (Option Nat))
  | [] => pure []
  | op :: ops => do
    let v ← op.run
    return v :: (← runAll ops)

/-- How many scopes are open after an operation. -/
def depth : Op → Nat → Nat
  | openScope .., d => d + 1
  | closeScope, d => d - 1
  | _, d => d

/-- With some scopes open, none is closed that was open before, and at the end all are closed. -/
def balanced : Nat → List Op → Bool
  | d, [] => d = 0
  | 0, closeScope :: _ => false
  | d, op :: ops => balanced (op.depth d) ops

theorem balanced_cons {d : Nat} {op : Op} {ops : List Op} (h : balanced d (op :: ops) = true) :
    (op = closeScope → 0 < d) ∧ balanced (op.depth d) ops = true := by
  cases d <;> cases op <;> simp_all [balanced]

end Op

variable {t t' t0 T r : SymbolTable} {s d : Nat} {ss es : List Nat} {op : Op} {ops : List Op} {v : Option Nat}
  {vs : List (Option Nat)} {isFunction : Bool} {name : Option String}

theorem runs_runAll_cons :
    Runs (Op.runAll (op :: ops)) t vs t' ↔
      ∃ v t1 vs', Runs op.run t v t1 ∧ Runs (Op.runAll ops) t1 vs' t' ∧ vs = v :: vs' := by
  simp only [Op.runAll, runs_bind, runs_pure]
  constructor
  · rintro ⟨v, t1, hop, vs', t2, hrest, rfl, rfl⟩
    exact ⟨v, t1, vs', hop, hrest, rfl⟩
  · rintro ⟨v, t1, vs', hop, hrest, rfl⟩
    exact ⟨v, t1, hop, vs', t', hrest, rfl, rfl⟩

theorem runs_open : Runs (Op.run (.openScope isFunction name)) t v t' ↔
    v = t'.current ∧ Runs (SymbolTable.openScope isFunction name) t () t' := by
  simp only [Op.run, runs_bind, runs_get, runs_pure]
  grind

theorem runs_close : Runs (Op.run .closeScope) t v t' ↔ v = none ∧ Runs SymbolTable.closeScope t () t' := by
  simp only [Op.run, runs_bind, runs_pure]
  grind

/-! ## What operations do -/

/-- A table is being filled, and its open scope is one of its scopes. -/
structure Sound (t : SymbolTable) : Prop extends Rooted t where
  replaying : t.replaying = false
  current_lt : ∀ s, t.current = some s → s < t.scopes.size

/-- What an operation on symbols does to a table. -/
structure Puts (t : SymbolTable) (op : Op) (v : Option Nat) (t' : SymbolTable) : Prop where
  current : t'.current = t.current
  replaying : t'.replaying = t.replaying
  scopes : t'.scopes.size = t.scopes.size
  above : ∀ i, (t'.scope i).above = (t.scope i).above
  name : ∀ i, (t'.scope i).name = (t.scope i).name
  rooted : Rooted t'
  ordered : Ordered t → Ordered t'
  named : ∀ i x, t'.named? i x = if v.isSome ∧ t.current = some i ∧ x = op.name then v else t.named? i x

/-- What an operation does to a table that is filled. -/
inductive Step (t : SymbolTable) : Op → Option Nat → SymbolTable → Prop
  | opened {s : Nat} {isFunction : Bool} {name : Option String} (hc : t.current = some s) :
      Step t (.openScope isFunction name) (some t.scopes.size) (t.made s isFunction name)
  | closed {s : Nat} (hc : t.current = some s) : Step t .closeScope none (t.shut s)
  | put {op : Op} {v : Option Nat} {t' : SymbolTable} (hop : op.isScope = false) (h : Puts t op v t') : Step t op v t'

theorem Enters.puts {frame : Nat} {size : Int} {x : Symbol} (h : Enters t s frame size x t') (hr : Rooted t)
    (hc : t.current = some s) (hname : x.name = op.name) (hobj : ∀ o, x = .object o → o.seen = 0) :
    Puts t op (some t.symbols.size) t' where
  current := h.current
  replaying := h.replaying
  scopes := h.scopes
  above := h.above
  name := h.name
  rooted := h.rooted hr
  ordered ho := h.ordered ho hobj
  named i x := by
    rw [h.named?, ← hname, hc]
    simp [eq_comm]

theorem Sound.step (h : Sound t) (hrun : Runs op.run t v t') : Step t op v t' := by
  have hcurrent : ∀ {x : Symbol} {v : Nat}, Runs (insert x) t v t' → ∃ s, t.current = some s := by
    intro x v hrun
    obtain ⟨s, _, hs, -⟩ := runs_bind.1 hrun
    exact ⟨s, (of_runs_currentScope hs).1⟩
  cases op with
  | openScope isFunction name =>
    obtain ⟨rfl, hopen⟩ := runs_open.1 hrun
    cases hc : t.current with
    | none => cases isFunction <;> simp [openScope, makeScope, currentScope, h.replaying, hc] at hopen
    | some s =>
      obtain rfl := (runs_openScope h.replaying hc).1 hopen
      exact .opened hc
  | closeScope =>
    obtain ⟨rfl, hclose⟩ := runs_close.1 hrun
    cases hc : t.current with
    | none => simp [closeScope, currentScope, hc] at hclose
    | some s =>
      obtain rfl := (runs_closeScope hc).1 hclose
      exact .closed hc
  | object o =>
    obtain ⟨v, hinsert, rfl⟩ := runs_map.1 hrun
    obtain ⟨s, hc⟩ := hcurrent hinsert
    have hs := h.current_lt s hc
    obtain ⟨rfl, size, -, henters⟩ := runs_insertObject hc hs (h.frameOf_lt hs) hinsert
    exact .put rfl (henters.puts h.toRooted hc rfl fun o ho => by cases ho; rfl)
  | function f =>
    obtain ⟨v, hinsert, rfl⟩ := runs_map.1 hrun
    obtain ⟨s, hc⟩ := hcurrent (runs_get_bind.1 hinsert)
    obtain ⟨rfl, henters⟩ := runs_insertFunction hc (h.current_lt s hc) hinsert
    exact .put rfl (henters.puts h.toRooted hc rfl fun o ho => by cases ho)
  | string raw codes node type =>
    obtain ⟨_, t1, hinsert, hpure⟩ := runs_bind.1 hrun
    obtain ⟨rfl, rfl⟩ := runs_pure.1 hpure
    refine .put rfl ?_
    cases hfind : t.findString (raw.toList.map Char.toNat) with
    | some i =>
      simp only [insertString, runs_get_bind, hfind, runs_pure] at hinsert
      obtain ⟨-, rfl⟩ := hinsert
      exact ⟨rfl, rfl, rfl, fun _ => rfl, fun _ => rfl, h.toRooted, id, by simp⟩
    | none =>
      obtain ⟨size, -, rfl⟩ := (runs_insertString hfind).1 hinsert
      refine ⟨rfl, rfl, size_modifyScope .., fun i => by rw [scope_withString_cells h.root_lt],
        fun i => by rw [scope_withString_cells h.root_lt], rooted_withString h.toRooted, ordered_withString, fun i x => ?_⟩
      rw [SymbolTable.named?, entries_withString h.root_lt]
      simp [SymbolTable.named?]

theorem Step.sound (h : Step t op v t') (ht : Sound t) : Sound t' := by
  cases h with
  | opened hc =>
    refine ⟨rooted_made ht.toRooted (ht.current_lt _ hc), ht.replaying, fun i hi => ?_⟩
    obtain rfl := Option.some.inj hi
    simp
  | @closed s hc =>
    refine ⟨⟨ht.root_lt, ht.root_above, ht.above_lt, ht.entry_lt⟩, ht.replaying, fun i hi => ?_⟩
    exact Nat.lt_trans (ht.above_lt s i (List.mem_of_head? hi)) (ht.current_lt s hc)
  | put hop h =>
    exact ⟨h.rooted, h.replaying.trans ht.replaying, fun i hi => h.scopes ▸ ht.current_lt i (h.current ▸ hi)⟩

theorem sound_empty : Sound {} := ⟨rooted_empty, rfl, by rintro s ⟨⟩; exact Nat.one_pos⟩

/-- Whatever is done, the open scope stays a scope of the table. -/
theorem Sound.runAll (h : Sound t) (hrun : Runs (Op.runAll ops) t vs t') : Sound t' := by
  induction ops generalizing t vs with
  | nil =>
    obtain ⟨-, rfl⟩ := runs_pure.1 hrun
    exact h
  | cons op ops ih =>
    obtain ⟨v, t1, vs, hop, hrest, rfl⟩ := runs_runAll_cons.1 hrun
    exact ih ((h.step hop).sound h) hrest

/-! ## Open scopes -/

/-- Some scopes were opened one inside the other, innermost first. -/
structure Within (t0 : SymbolTable) (ss : List Nat) (t : SymbolTable) : Prop extends Sound t where
  le : t0.scopes.size ≤ t.scopes.size
  above_eq : ∀ i < t0.scopes.size, (t.scope i).above = (t0.scope i).above
  current : t.current = (ss ++ t0.chain).head?
  layers : ∀ s ss', s :: ss' <:+ ss → t0.scopes.size ≤ s ∧ s < t.scopes.size ∧ (t.scope s).above = ss' ++ t0.chain

/-- The scopes that are open after an operation. -/
def Op.nest (op : Op) (t : SymbolTable) (ss : List Nat) : List Nat :=
  match op with
  | .openScope .. => t.scopes.size :: ss
  | .closeScope => ss.tail
  | _ => ss

theorem Op.nest_put (hop : op.isScope = false) : op.nest t ss = ss := by cases op <;> first | rfl | cases hop

theorem head?_chain (t : SymbolTable) : t.chain.head? = t.current := by
  unfold chain
  cases t.current <;> rfl

theorem Within.start (h0 : Sound t0) : Within t0 [] t0 :=
  ⟨h0, Nat.le_refl _, fun _ _ => rfl, (head?_chain t0).symm, fun _ _ h => by simp at h⟩

theorem Within.chain (h0 : Sound t0) (h : Within t0 ss t) : t.chain = ss ++ t0.chain := by
  have hcurrent := h.current
  cases ss with
  | nil =>
    rw [List.nil_append, head?_chain] at hcurrent
    unfold SymbolTable.chain
    rw [hcurrent]
    cases hs : t0.current with
    | none => rfl
    | some s =>
      show s :: (t.scope s).above = s :: (t0.scope s).above
      rw [h.above_eq s (h0.current_lt s hs)]
  | cons s ss =>
    have hs := (h.layers s ss List.suffix_rfl).2.2
    simp [SymbolTable.chain, hcurrent, hs]

theorem Within.step (h0 : Sound t0) (h : Within t0 ss t) (hstep : Step t op v t') (hclose : op = .closeScope → ss ≠ []) :
    Within t0 (op.nest t ss) t' := by
  have hsound := hstep.sound h.toSound
  have hle := h.le
  cases hstep with
  | @opened s isFunction name hc =>
    have hs := h.current_lt s hc
    have hchain : s :: (t.scope s).above = ss ++ t0.chain := by rw [← h.chain h0, SymbolTable.chain, hc]
    refine ⟨hsound, by simp; omega, fun i hi => ?_, rfl, fun i ss' hi => ?_⟩
    · rw [above_made hs, if_neg (by omega), h.above_eq i hi]
    · rw [size_made, above_made hs]
      obtain heq | hi := List.suffix_cons_iff.1 hi
      · obtain ⟨rfl, rfl⟩ := List.cons.inj heq
        exact ⟨hle, Nat.lt_succ_self _, by rw [if_pos rfl, hchain]⟩
      · obtain ⟨hle', hlt, habove⟩ := h.layers i ss' hi
        exact ⟨hle', by omega, by rw [if_neg (by omega), habove]⟩
  | @closed s hc =>
    cases ss with
    | nil => exact absurd rfl (hclose rfl)
    | cons i ss =>
      obtain rfl : i = s := by simpa [h.current] using hc
      refine ⟨hsound, hle, h.above_eq, ?_, fun j ss' hj => h.layers j ss' (hj.trans (List.suffix_cons i ss))⟩
      show (t.scope i).above.head? = _
      rw [(h.layers i ss List.suffix_rfl).2.2]
      rfl
  | put hop hput =>
    rw [Op.nest_put hop]
    refine ⟨hsound, hput.scopes ▸ hle, fun i hi => (hput.above i).trans (h.above_eq i hi), hput.current.trans h.current,
      fun s ss' hs => ?_⟩
    rw [hput.scopes, hput.above]
    exact h.layers s ss' hs

/-! ## Names -/

/-- What was put into a scope, the latest first. -/
abbrev Frame := List (Option String × Nat)

/-- What was put into the open scopes, innermost first, after an operation. -/
def Op.enter (op : Op) (v : Option Nat) (fs : List Frame) : List Frame :=
  match op, v, fs with
  | .openScope .., _, fs => [] :: fs
  | .closeScope, _, fs => fs.tail
  | op, some v, f :: fs => ((op.name, v) :: f) :: fs
  | _, _, fs => fs

def framesOf (fs : List Frame) : List Op → List (Option Nat) → List Frame
  | op :: ops, v :: vs => framesOf (op.enter v fs) ops vs
  | _, _ => fs

/-- The open scopes have the names that were put into them, and all others those that they had. -/
structure Names (t0 : SymbolTable) (ss : List Nat) (fs : List Frame) (t : SymbolTable) : Prop extends Within t0 ss t where
  frames : ss.map t.named? = fs.map fun f x => List.lookup x f
  named_eq : ∀ i < t0.scopes.size, t.named? i = t0.named? i

theorem lookup_eq (t : SymbolTable) (x : String) : t.lookup (some x) 0 = (t.chain.map t.named?).findSome? (· (some x)) := by
  rw [lookup, List.findSome?_map]
  congr 1
  funext s
  rw [lookupIn_eq, Function.comp_apply]
  cases t.named? s (some x) with
  | none => rfl
  | some v => cases hv : t.symbol v <;> simp [Symbol.isVisible, hv]

theorem Sound.mem_chain_lt (h : Sound t) : ∀ i ∈ t.chain, i < t.scopes.size := by
  intro i hi
  unfold chain at hi
  cases hc : t.current with
  | none => simp [hc] at hi
  | some s =>
    have hs := h.current_lt s hc
    simp only [hc, List.mem_cons] at hi
    obtain rfl | hi := hi
    · exact hs
    · exact Nat.lt_trans (h.above_lt s i hi) hs

section
variable {fs : List Frame} (h0 : Sound t0)
include h0

theorem Names.lookup (h : Names t0 ss fs t) (x : String) :
    t.lookup (some x) 0 = (fs.findSome? (List.lookup (some x))).or (t0.lookup (some x) 0) := by
  have hold : t0.chain.map t.named? = t0.chain.map t0.named? :=
    List.map_congr_left fun i hi => h.named_eq i (h0.mem_chain_lt i hi)
  rw [lookup_eq, lookup_eq, h.chain h0, List.map_append, hold, h.frames, List.findSome?_append, List.findSome?_map]
  rfl

theorem Names.opened (h : Names t0 ss fs t) (hstep : Step t (.openScope isFunction name) v t') :
    Names t0 (t.scopes.size :: ss) ([] :: fs) t' := by
  have hwithin := h.toWithin.step h0 hstep nofun
  cases hstep with
  | put hop => cases hop
  | @opened s _ _ hc =>
    have hnamed : (t.made s isFunction name).named? = t.named? := by
      funext i x
      rw [SymbolTable.named?, entries_made (h.current_lt s hc)]
      rfl
    have hnew : t.named? t.scopes.size = fun _ => none := by
      funext x
      simp [SymbolTable.named?, entries, scope_of_le]
    exact ⟨hwithin, by rw [List.map_cons, hnamed, hnew, h.frames]; rfl, by rw [hnamed]; exact h.named_eq⟩

/-- Inside of an open scope. -/
theorem Names.step {f : Frame} (h : Names t0 ss (f :: fs) t) (hstep : Step t op v t') :
    Names t0 (op.nest t ss) (op.enter v (f :: fs)) t' := by
  have hframes := h.frames
  cases ss with
  | nil => cases hframes
  | cons s ss =>
    have hwithin := h.toWithin.step h0 hstep fun _ => List.cons_ne_nil s ss
    obtain ⟨hs, hss⟩ := List.cons.inj hframes
    cases hstep with
    | opened hc => exact h.opened h0 (.opened hc)
    | closed hc => exact ⟨hwithin, hss, h.named_eq⟩
    | put hop hput =>
      obtain ⟨hle, -, habove⟩ := h.layers s ss List.suffix_rfl
      have hc : t.current = some s := by simp [h.current]
      have hother : ∀ i, i ≠ s → t'.named? i = t.named? i := by
        intro i hi
        funext x
        rw [hput.named, hc, if_neg (by simp [Ne.symm hi])]
      have htail : ss.map t'.named? = ss.map t.named? := List.map_congr_left fun i hi =>
        hother i (Nat.ne_of_lt (h.above_lt s i (by simp [habove, hi])))
      refine ⟨hwithin, ?_, fun i hi => (hother i (by omega)).trans (h.named_eq i hi)⟩
      have henter : op.enter v (f :: fs) = (match v with | some v => (op.name, v) :: f | none => f) :: fs := by
        cases op <;> first | (cases hop; done) | (cases v <;> rfl)
      rw [Op.nest_put hop, henter, List.map_cons, List.map_cons, htail, hss]
      congr 1
      funext x
      rw [hput.named, hc, hs]
      cases v with
      | none => simp
      | some v =>
        simp only [Option.isSome_some, true_and, List.lookup_cons]
        by_cases hx : x = op.name
        · simp [hx]
        · simp [hx, beq_eq_false_iff_ne.2 hx]

/-- Operations that stay inside of open scopes, and may be followed by others. -/
theorem Names.runAll {rest : List Op} (h : Names t0 ss fs t) (hd : fs.length = d + 1)
    (hb : Op.balanced d (ops ++ rest) = true) (hrun : Runs (Op.runAll ops) t vs t') :
    ∃ ss' d', Names t0 ss' (framesOf fs ops vs) t' ∧ (framesOf fs ops vs).length = d' + 1 ∧ Op.balanced d' rest = true := by
  induction ops generalizing t ss fs d vs with
  | nil =>
    obtain ⟨rfl, rfl⟩ := runs_pure.1 hrun
    exact ⟨ss, d, h, hd, hb⟩
  | cons op ops ih =>
    obtain ⟨v, t1, vs, hop, hrest, rfl⟩ := runs_runAll_cons.1 hrun
    obtain ⟨f, fs, rfl⟩ := List.exists_cons_of_length_eq_add_one hd
    obtain ⟨hclose, hb⟩ := Op.balanced_cons hb
    have hlength : (op.enter v (f :: fs)).length = op.depth d + 1 := by
      cases op <;> cases v <;> simp_all [Op.enter, Op.depth]
      all_goals omega
    exact ih (h.step h0 (h.toSound.step hop)) hlength hb hrest

end

theorem runs_runAll_append {ops' : List Op} (h : Runs (Op.runAll (ops ++ ops')) t vs t') :
    ∃ vs1 vs2 t1, Runs (Op.runAll ops) t vs1 t1 ∧ Runs (Op.runAll ops') t1 vs2 t' := by
  induction ops generalizing t vs with
  | nil => exact ⟨[], vs, t, runs_pure.2 ⟨rfl, rfl⟩, h⟩
  | cons op ops ih =>
    obtain ⟨v, t1, vs, hop, hrest, rfl⟩ := runs_runAll_cons.1 h
    obtain ⟨vs1, vs2, t2, h1, h2⟩ := ih hrest
    exact ⟨v :: vs1, vs2, t2, runs_runAll_cons.2 ⟨v, t1, vs1, hop, h1, rfl⟩, h2⟩

/-- A pair of scope calls with whatever is balanced between them leaves every name as it was. After any first part of it, a
name stands for what was put last into the innermost of the open scopes that has it, or else for what it did before. -/
theorem lookup_nested (h0 : Sound t) (hb : Op.balanced 0 ops = true) (isFunction : Bool) (name : Option String) :
    (∀ vs t', Runs (Op.runAll (.openScope isFunction name :: (ops ++ [.closeScope]))) t vs t' →
      ∀ x : String, t'.lookup (some x) 0 = t.lookup (some x) 0) ∧
    ∀ first, first <+: ops → ∀ vs t', Runs (Op.runAll (.openScope isFunction name :: first)) t vs t' → ∀ x : String,
      t'.lookup (some x) 0 =
        ((framesOf [] (.openScope isFunction name :: first) vs).findSome? (List.lookup (some x))).or (t.lookup (some x) 0) := by
  have hinside : ∀ first rest, ops = first ++ rest → ∀ vs t',
      Runs (Op.runAll (.openScope isFunction name :: first)) t vs t' → ∃ ss d,
        Names t ss (framesOf [] (.openScope isFunction name :: first) vs) t' ∧
          (framesOf [] (.openScope isFunction name :: first) vs).length = d + 1 ∧ Op.balanced d rest = true := by
    rintro first rest rfl vs t' hrun
    obtain ⟨v, t1, vs, hop, hrest, rfl⟩ := runs_runAll_cons.1 hrun
    have hstart : Names t [] [] t := ⟨.start h0, rfl, fun _ _ => rfl⟩
    exact (hstart.opened h0 (h0.step hop)).runAll h0 rfl hb hrest
  constructor
  · intro vs t' hrun x
    rw [← List.cons_append] at hrun
    obtain ⟨vs1, vs2, t1, hfirst, hlast⟩ := runs_runAll_append hrun
    obtain ⟨ss, d, hnames, hlength, hend⟩ := hinside ops [] (List.append_nil ops).symm vs1 t1 hfirst
    obtain rfl : d = 0 := by simpa [Op.balanced] using hend
    obtain ⟨f, hf⟩ := List.length_eq_one_iff.1 hlength
    rw [hf] at hnames
    obtain ⟨v, t2, vs, hop, hnil, rfl⟩ := runs_runAll_cons.1 hlast
    obtain ⟨rfl, rfl⟩ := runs_pure.1 hnil
    simpa [Op.enter] using (hnames.step h0 (hnames.toSound.step hop)).lookup h0 x
  · rintro first ⟨rest, rfl⟩ vs t' hrun x
    obtain ⟨ss, d, hnames, -⟩ := hinside first rest rfl vs t' hrun
    exact hnames.lookup h0 x

theorem runs_outcome {α : Type} {m : TableM α} {a : α} (h : (outcome m t).1 = .ok a) : Runs m t a (outcome m t).2 :=
  Prod.ext h rfl

/-- A variable for a number. -/
def Op.int (name : String) : Op :=
  .object { name, node := 0, position := default, byDeclarator := true, type := .plain .int false }

theorem lookup_nested_shadowed :
    let t := (outcome (Op.runAll [.int "x"]) {}).2
    (outcome (Op.runAll [.openScope true "main", .int "x", .closeScope]) t).2.lookup "x" 0 = some 0 ∧
      (outcome (Op.runAll [.openScope true "main", .int "x"]) t).2.lookup "x" 0 = some 1 := by
  intro t
  have ht : Runs (Op.runAll [.int "x"]) {} [some 0] t := runs_outcome (by decide +kernel)
  obtain ⟨hclosed, hinside⟩ :=
    lookup_nested (sound_empty.runAll ht) (show Op.balanced 0 [.int "x"] = true from rfl) true "main"
  constructor
  · exact (hclosed [some 1, some 1, none] _ (runs_outcome (by decide +kernel)) "x").trans (by decide +kernel)
  · rw [hinside [.int "x"] (List.prefix_refl _) [some 1, some 1] _ (runs_outcome (by decide +kernel)) "x"]
    rfl

/-! ## Going through the scopes again -/

/-- What the calls for scopes gave, of what all operations gave. -/
def scopesOf (ops : List Op) (vs : List (Option Nat)) : List (Option Nat) :=
  ((ops.zip vs).filter (·.1.isScope)).map (·.2)

/-- Does the operations from the root, some number of times. -/
def rounds (ops : List Op) : Nat → TableM (List (List (Option Nat)))
  | 0 => pure []
  | n + 1 => do
    let first ← Op.runAll ops
    modify reset
    return first :: (← rounds ops n)

/-- The scopes of a table are still there, where they were. -/
structure Kept (t T : SymbolTable) : Prop where
  le : t.scopes.size ≤ T.scopes.size
  above : ∀ i < t.scopes.size, (T.scope i).above = (t.scope i).above
  name : ∀ i < t.scopes.size, (T.scope i).name = (t.scope i).name

theorem Kept.trans (h : Kept t t') (h' : Kept t' T) : Kept t T where
  le := Nat.le_trans h.le h'.le
  above i hi := (h'.above i (Nat.lt_of_lt_of_le hi h.le)).trans (h.above i hi)
  name i hi := (h'.name i (Nat.lt_of_lt_of_le hi h.le)).trans (h.name i hi)

theorem Step.kept (h : Step t op v t') (ht : Sound t) : Kept t t' := by
  cases h with
  | @opened s isFunction name hc =>
    have hs := ht.current_lt s hc
    refine ⟨by simp, fun i hi => by rw [above_made hs, if_neg (Nat.ne_of_lt hi)], fun i hi => ?_⟩
    rw [scope_made hs, if_neg (Nat.ne_of_lt hi)]
    split <;> rfl
  | closed hc => exact ⟨Nat.le_refl _, fun _ _ => rfl, fun _ _ => rfl⟩
  | put hop h => exact ⟨Nat.le_of_eq h.scopes.symm, fun i _ => h.above i, fun i _ => h.name i⟩

theorem Step.ordered (h : Step t op v t') (ht : Sound t) (ho : Ordered t) : Ordered t' := by
  cases h with
  | opened hc => exact ordered_made ho (ht.current_lt _ hc)
  | closed hc => exact ordered_shut ho _
  | put hop h => exact h.ordered ho

/-- The calls for scopes among some operations go where the operations went. -/
def Retraced (ops : List Op) (vs : List (Option Nat)) (t T : SymbolTable) : Prop :=
  ∀ s r, t.current = some s → Replays T s t.scopes.size r →
    ∃ s' n r', Runs (Op.runAll (ops.filter Op.isScope)) r (scopesOf ops vs) r' ∧ Replays T s' n r' ∧ r'.notices = r.notices

theorem Step.retraced (h : Step t op v t') (ht : Within {} ss t) (hclose : op = .closeScope → ss ≠ []) (hk : Kept t' T)
    (ho : Ordered T) (hrest : Retraced ops vs t' T) : Retraced (op :: ops) (v :: vs) t T := by
  intro s r hs hr
  have hlt := ht.current_lt s hs
  cases h with
  | @opened i isFunction name hc =>
    obtain rfl : i = s := Option.some.inj (hc.symm.trans hs)
    have hnew : t.scopes.size < (t.made i isFunction name).scopes.size := by simp
    have habove := hk.above _ hnew
    have hname := hk.name _ hnew
    rw [above_made hlt, if_pos rfl] at habove
    rw [scope_made hlt, if_pos rfl] at hname
    obtain ⟨r1, hopen, hr1, -, hnotices⟩ :=
      hr.opened ho (Nat.lt_of_lt_of_le hnew hk.le) (by rw [habove]; rfl) isFunction name
    obtain ⟨s', n, r', hrun, hr', hnotices'⟩ := hrest _ r1 rfl (by rwa [size_made])
    refine ⟨s', n, r', ?_, hr', hnotices'.trans (hnotices hname)⟩
    exact runs_runAll_cons.2 ⟨_, r1, _, runs_open.2 ⟨rfl, hopen⟩, hrun, by rw [hr1.current]; rfl⟩
  | @closed i hc =>
    obtain rfl : i = s := Option.some.inj (hc.symm.trans hs)
    obtain ⟨a, ha⟩ : ∃ a, (t.scope i).above.head? = some a := by
      cases ss with
      | nil => exact absurd rfl (hclose rfl)
      | cons j ss =>
        obtain rfl : j = i := by simpa [ht.current] using hc
        rw [(ht.layers j ss List.suffix_rfl).2.2]
        cases ss <;> exact ⟨_, rfl⟩
    have hhead : (T.scope i).above.head? = some a := by
      rw [hk.above i hlt]
      exact ha
    obtain ⟨r1, hclosed, hr1, -⟩ := hr.closed hhead (Nat.lt_trans (ht.above_lt i a (List.mem_of_head? ha)) hlt)
    obtain ⟨s', n, r', hrun, hr', hnotices⟩ := hrest a r1 ha hr1
    obtain rfl := (runs_closeScope hr.current).1 hclosed
    exact ⟨s', n, r', runs_runAll_cons.2 ⟨none, _, _, runs_close.2 ⟨rfl, hclosed⟩, hrun, rfl⟩, hr', hnotices⟩
  | put hop h =>
    obtain ⟨s', n, r', hrun, hr', hnotices⟩ := hrest s r (h.current.trans hs) (by rwa [h.scopes])
    exact ⟨s', n, r', by simpa [scopesOf, hop] using hrun, hr', hnotices⟩

/-- Operations on a table that is filled, with some scopes open. -/
theorem Within.retraced (h : Within {} ss t) (ho : Ordered t) (hb : Op.balanced ss.length ops = true)
    (hrun : Runs (Op.runAll ops) t vs T) : Ordered T ∧ Kept t T ∧ Retraced ops vs t T := by
  induction ops generalizing t ss vs with
  | nil =>
    obtain ⟨rfl, rfl⟩ := runs_pure.1 hrun
    refine ⟨ho, ⟨Nat.le_refl _, fun _ _ => rfl, fun _ _ => rfl⟩, fun s r _ hr => ?_⟩
    exact ⟨s, _, r, runs_pure.2 ⟨rfl, rfl⟩, hr, rfl⟩
  | cons op ops ih =>
    obtain ⟨v, t1, vs, hop, hrest, rfl⟩ := runs_runAll_cons.1 hrun
    obtain ⟨hclose, hb⟩ := Op.balanced_cons hb
    have hopen : op = .closeScope → ss ≠ [] := fun hop => List.ne_nil_of_length_pos (hclose hop)
    have hstep := h.toSound.step hop
    have hlength : (op.nest t ss).length = op.depth ss.length := by cases op <;> simp [Op.nest, Op.depth]
    obtain ⟨hT, hk, hretraced⟩ := ih (h.step sound_empty hstep hopen) (hstep.ordered h.toSound ho) (hlength ▸ hb) hrest
    exact ⟨hT, (hstep.kept h.toSound).trans hk, hstep.retraced h hopen hk hT hretraced⟩

/-- The same calls for scopes go to the scopes that they made when the table was filled, without a word, and again and again
when one starts from the root. -/
theorem entered_again (hb : Op.balanced 0 ops = true) (h : Runs (Op.runAll ops) {} vs T) (n : Nat) :
    ∃ t', Runs (rounds (ops.filter Op.isScope) n) T.startReplay (List.replicate n (scopesOf ops vs)) t' ∧
      t'.notices = T.notices := by
  obtain ⟨hT, -, hretraced⟩ := (Within.start sound_empty).retraced ordered_empty hb h
  have hrounds : ∀ r, Replays T 0 1 r →
      ∃ t', Runs (rounds (ops.filter Op.isScope) n) r (List.replicate n (scopesOf ops vs)) t' ∧ t'.notices = r.notices := by
    induction n with
    | zero => exact fun r _ => ⟨r, runs_pure.2 ⟨rfl, rfl⟩, rfl⟩
    | succ n ih =>
      intro r hr
      obtain ⟨s, m, r1, hrun, hr1, hnotices⟩ := hretraced 0 r rfl hr
      obtain ⟨t', hrest, hnotices'⟩ := ih r1.reset (hr1.reset hT.toRooted)
      refine ⟨t', ?_, hnotices'.trans hnotices⟩
      exact runs_bind.2 ⟨_, r1, hrun, runs_modify_bind.2 (runs_bind.2 ⟨_, t', hrest, runs_pure.2 ⟨rfl, rfl⟩⟩)⟩
  exact hrounds T.startReplay (replays_startReplay hT)

theorem entered_again_twice :
    let ops := [.openScope true (some "main"), .int "x", .openScope false none, .closeScope, .openScope false none,
      .closeScope, .closeScope]
    let scopes := [some 1, some 2, none, some 3, none, none]
    ∃ t', Runs (rounds (ops.filter Op.isScope) 2) (outcome (Op.runAll ops) {}).2.startReplay [scopes, scopes] t' := by
  intro ops scopes
  have hfilled : Runs (Op.runAll ops) {} [some 1, some 0, some 2, none, some 3, none, none] (outcome (Op.runAll ops) {}).2 :=
    runs_outcome (by decide +kernel)
  obtain ⟨t', hrun, -⟩ := entered_again rfl hfilled 2
  exact ⟨t', hrun⟩

end MiniC.SymbolTable
