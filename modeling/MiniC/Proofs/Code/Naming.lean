import MiniC.Proofs.Code.Agree
import MiniC.Proofs.Scope.Checked

/-!
# Names by the lexical rules

A variable is addressed by a level and by an offset, which the code maker finds through the symbol of its name in the
table. `Lexical.name` finds them by the lexical rules: the declaration that is visible gives the address, and the frames
between are counted in the tree. In an expression whose names have the symbols that they stand for, both ways give the
same code.
-/

namespace MiniC

open SymbolTable Emit

def Emit.variable (n : Node) (level address : Option Int) (setting : Setting) : EmitM Unit := do
  let type ← lift n.exprType
  let isArray ← if setting.address then pure true else lift type.isArray
  match address with
  | none => throw .unsuitable
  | some a =>
    if isArray then instr (.lda level (a + frameOffset))
    else
      let cell ← lift (cellOf type)
      instr (.lod cell level (a + frameOffset))

namespace Lexical

/-- A way to code names, with what is visible at the name. -/
abbrev NameCoder := Env → Node → String → Option Nat → Setting → EmitM Unit

/-- A name by the lexical rules. -/
def name : NameCoder := fun env n x _ setting => do
  let s ← get
  let found := env.find? x
  Emit.variable n (found.map (·.2)) (found.bind fun d => s.table.addressAt d.1) setting

/-- The code of a node: that of a name is made in some way. -/
def codeBy (f : NameCoder) (env : Env) (n : Node) (cs : List Coder) (setting : Setting) : EmitM Unit :=
  match n.kind with
  | .name x _ symbol => dropping n setting (f env n x symbol setting)
  | _ => Emit.codeOf n cs setting

mutual

/-- The coder of a tree in which names are coded in some way. -/
def coderBy (f : NameCoder) (env : Env) (above : List Kind) : Node → Coder
  | .mk id kind o cs =>
    let children := codersBy f (env.within above id kind) (kind :: above) cs
    .mk (.mk id kind o cs) (codeBy f env (.mk id kind o cs) children) children

def codersBy (f : NameCoder) (env : Env) (above : List Kind) : List Node → List Coder
  | [] => []
  | n :: ns => coderBy f env above n :: codersBy f (env.past above n) above ns

end

@[simp] theorem node_coderBy (f : NameCoder) (env : Env) (above : List Kind) (n : Node) : (coderBy f env above n).node = n := by
  cases n
  rw [coderBy]
  rfl

/-- The declarators of the globals, with the nodes above them. -/
def globalsOf (p : Node) (cs : List Coder) : List (Coder × List Node) :=
  cs.flatMap fun c =>
    match c.node.kind with
    | .variableDeclaration _ =>
      (c.children.filter fun d =>
        match d.node.kind with
        | .declarator head => head.symbol.isSome
        | _ => false).map fun d => (d, [c.node, p])
    | _ => []

def programOf (p : Node) (cs : List Coder) : EmitM Unit := do
  let zero : Instr := .ldc .int (.number 0)
  instrs [zero, zero, zero]
  reserve
  let s ← get
  for (codes, v) in s.table.sortedStrings do
    let address ← offsetOf (some v)
    storeLiteral codes address
  for (c, above) in globalsOf p cs do
    c.run { above }
  instrs [.mst 0, .cup 0 (.function "main"), .hlt]
  for c in cs do
    if c.node.kind.isDefinition then c.run { above := [p] }

def programBy (f : NameCoder) (p : Node) : EmitM Unit := programOf p (codersBy f {} [p.kind] p.children)

/-- The code of a program by the lexical rules: the fault that ended it early, if there was one, and the code. -/
def generate (p : Node) (table : SymbolTable) : Option Fault × List Line :=
  let (result, s) := (programBy name p).run.run { table }
  let fault := match result with
    | .ok _ => none
    | .error f => some f
  (fault, s.code.toList)

end Lexical

/-! ## The code maker itself -/

namespace Lexical

theorem codeBy_name (env : Env) (n : Node) (cs : List Coder) :
    codeBy (fun _ n _ symbol setting => Emit.name n symbol setting) env n cs = Emit.codeOf n cs := by
  funext setting
  obtain ⟨id, kind, o, ns⟩ := n
  cases kind <;> rfl

mutual

/-- The coders of a tree are those in which names are coded by their symbols. -/
theorem coderBy_name (env : Env) (above : List Kind) (n : Node) :
    coderBy (fun _ n _ symbol setting => Emit.name n symbol setting) env above n = coder n := by
  match n with
  | .mk id kind o cs =>
    rw [coderBy, coder, codersBy_name, codeBy_name]

theorem codersBy_name (env : Env) (above : List Kind) (ns : List Node) :
    codersBy (fun _ n _ symbol setting => Emit.name n symbol setting) env above ns = coders ns := by
  match ns with
  | [] => rfl
  | n :: ns => rw [codersBy, coders, coderBy_name, codersBy_name]

end

theorem globalsOf_coders (p : Node) : globalsOf p (coders p.children) = globals p := by
  rw [coders_eq, globalsOf, globals, List.flatMap_map]
  refine List.flatMap_congr fun n _ => ?_
  obtain ⟨id, kind, o, cs⟩ := n
  cases kind with
  | variableDeclaration spec =>
    simp only [node_coder, Node.kind, children_coder, Node.children, coders_eq, List.filter_map, List.map_map]
    congr 2
    funext d
    exact congrArg (fun n : Node => match n.kind with | .declarator head => head.symbol.isSome | _ => false)
      (node_coder d)
  | _ => rfl

theorem programOf_coders (p : Node) : programOf p (coders p.children) = program p := by
  unfold programOf program
  rw [globalsOf_coders]
  simp only [coders_eq, List.forIn_map, node_coder]

end Lexical

/-! ## Variables -/

namespace Lexical

variable {T t : SymbolTable} {sp : Spot} {k : Nat} {x : String} {n : Node} {setting : Setting} {above : List Kind}

section

variable {I J : SymbolTable → Prop} {g : Int → EmitM Unit} {m : EmitM Unit} {v : Nat}

theorem agree_offsetOf {a : Int} (h : ∀ t, I t → (t.symbol v).address = some a) (hg : Agree I J (g (a + Emit.frameOffset)) m) :
    Agree I J (offsetOf (some v) >>= g) m := by
  intro s hs
  have hoffset : outcome (offsetOf (some v)) s = (.ok (a + Emit.frameOffset), s) := by
    refine runs_get_bind.2 ?_
    rw [Option.bind_some, h _ hs]
    exact runs_pure.2 ⟨rfl, rfl⟩
  refine ⟨?_, fun u s' hr => ?_⟩
  · rw [outcome_bind, hoffset]
    exact (hg s hs).1
  · obtain ⟨b, s1, hb, hr⟩ := runs_bind.1 hr
    obtain ⟨rfl, rfl⟩ : a + Emit.frameOffset = b ∧ s = s1 := by
      have := hoffset.symm.trans hb
      simpa using this
    exact (hg s hs).2 u s' hr

theorem agree_offsetOf_none (h : ∀ t, I t → (t.symbol v).address = none) :
    Agree I J (offsetOf (some v) >>= g) (throw .unsuitable) := by
  intro s hs
  have hoffset : outcome (offsetOf (some v)) s = (.error .unsuitable, s) := by
    rw [offsetOf, outcome_bind, outcome_get]
    dsimp only
    rw [Option.bind_some, h _ hs]
    rfl
  refine ⟨by rw [outcome_bind, hoffset]; rfl, fun u s' hr => ?_⟩
  obtain ⟨b, s1, hb, -⟩ := runs_bind.1 hr
  have := hoffset.symm.trans hb
  cases this

end

/-- What is needed of the table at a place. -/
structure Ready (T : SymbolTable) (sp : Spot) : Prop where
  built : Built T
  located : Located T
  chain : (T.scope sp.scope).above = sp.around
  lt : sp.scope < sp.next

/-- The name coder finds what the lexical rules tell. -/
theorem agree_name {type : Option CType} {symbol : Option Nat} (hr : Ready T sp) (hlinked : Linked T sp (.name x type symbol)) :
    Agree (Replays T sp.scope k) (Replays T sp.scope k) (Emit.name n symbol setting) (name sp.env n x symbol setting) := by
  obtain ⟨v, i, o, level, rfl, hsymbol, hfind, hscope, hnamed, hlevel⟩ := hlinked
  have hlt : v < T.symbols.size := hr.built.entry_lt _ _ (mem_of_named? hnamed)
  have haddress : T.addressAt o.node = o.address := by
    refine hr.located o ?_
    rw [← hsymbol, symbol, Array.getElem?_eq_getElem hlt]
    exact Array.getElem_mem_toList hlt
  refine .state fun s hs => ?_
  have hlevelOf : s.table.levelOf v = some level := by
    rw [levelOf_eq hs, around, hr.chain, levelOf_go_eq hr.built hnamed, hlevel]
  have hoffset : ∀ t, t = s.table → (t.symbol v).address = o.address := by
    rintro _ rfl
    rw [hs.address, hsymbol]
    rfl
  have hafter : ∀ {m : EmitM Unit}, Steady m → Agree (· = s.table) (Replays T sp.scope k) m m := fun hm =>
    hm.agree.mono (fun _ ht => ht) fun _ ht => ht ▸ hs
  dsimp only
  rw [Option.bind_some, hlevelOf, hfind, Option.map_some, Option.bind_some, hs.addressAt, haddress]
  refine .lift rfl fun type _ => ?_
  have hrest : ∀ isArray : Bool, Agree (· = s.table) (Replays T sp.scope k) (do
      let offset ← offsetOf (some v)
      if isArray then Emit.instr (.lda (some level) offset)
      else
        let cell ← Emit.lift (Emit.cellOf type)
        Emit.instr (.lod cell (some level) offset)) (match o.address with
      | none => throw .unsuitable
      | some a =>
        if isArray then Emit.instr (.lda (some level) (a + Emit.frameOffset))
        else do
          let cell ← Emit.lift (Emit.cellOf type)
          Emit.instr (.lod cell (some level) (a + Emit.frameOffset))) := by
    intro isArray
    cases ho : o.address with
    | none => exact agree_offsetOf_none fun t ht => (hoffset t ht).trans ho
    | some a =>
      refine agree_offsetOf (fun t ht => (hoffset t ht).trans ho) (.ite (fun _ => hafter (steady_instr _)) fun _ => ?_)
      exact hafter (.bind (steady_lift _) fun _ => steady_instr _)
  exact .ite (fun _ => .steady (steady_pure _) hrest) fun _ => .steady (steady_lift _) hrest

/-! ## Expressions -/

open Emit in
theorem agree_codeOf {I : SymbolTable → Prop} {cs cs' : List Coder} (hcs : List.Forall₂ (Coder.Match I) cs cs')
    (hkind : n.kind.isInert = true) : Agree I I (codeOf n cs setting) (codeOf n cs' setting) := by
  obtain ⟨id, kind, o, ns⟩ := n
  by_cases hconditional : kind = .conditional
  · subst hconditional
    exact agree_dropping (agree_iff.2 (agreeing_free.choice hcs (agreeing_setting _)))
  · refine agree_iff.2 (tracks_codeOf agreeing_free.loops rfl hcs (agreeing_setting _) ?_ ?_ fun _ _ _ _ _ _ => agreeing_free.line _)
    · cases kind <;> first | rfl | exact absurd rfl hconditional | cases hkind
    · rintro rfl
      cases hkind

mutual

theorem match_inert (hr : Ready T sp) (k : Nat) (above : List Kind) (n : Node) (hf : n.formed = true)
    (hi : n.kind.isInert = true) (hlinked : n.Each (Linked T sp)) :
    Coder.Match (Replays T sp.scope k) (coder n) (coderBy name sp.env above n) := by
  match n with
  | .mk id kind o cs =>
    obtain ⟨hcs, hinert⟩ := inert_children hf hi
    have hi : kind.isInert = true := hi
    have hmatch := match_inertAll hr k (kind :: above) cs hcs hinert hlinked.2
    rw [coderBy, within_inert hi]
    refine .mk (fun setting => ?_) hmatch
    cases kind with
    | name x type symbol => exact Emit.agree_dropping (agree_name hr hlinked.1)
    | _ => exact agree_codeOf hmatch hi

theorem match_inertAll (hr : Ready T sp) (k : Nat) (above : List Kind) (ns : List Node) (hf : Node.formedAll ns = true)
    (hi : ∀ n ∈ ns, n.kind.isInert = true) (hlinked : Node.EachAll (Linked T sp) ns) :
    List.Forall₂ (Coder.Match (Replays T sp.scope k)) (coders ns) (codersBy name sp.env above ns) := by
  match ns with
  | [] => exact .nil
  | n :: ns =>
    obtain ⟨hn, hns⟩ := Bool.and_eq_true_iff.1 hf
    have hin := hi n List.mem_cons_self
    rw [coders, codersBy, (past_inert sp.env above n hn hin).1]
    exact .cons (match_inert hr k above n hn hin hlinked.1)
      (match_inertAll hr k above ns hns (fun m hm => hi m (List.mem_cons_of_mem n hm)) hlinked.2)

end

end Lexical

end MiniC
