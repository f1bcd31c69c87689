import MiniC.Proofs.Code.Linking
import MiniC.Proofs.Renaming.Checking
import MiniC.Proofs.Renaming.Coding
import MiniC.Proofs.Scope.Checked

/-!
# Programs under other names

The code of a program does not depend on how its variables and parameters are called. If the program is compiled to the
end, so is the one with other names, and the lines of code are the same; the new names have to be different where the old
ones are, and must not be those of functions.
-/

namespace MiniC

open Node (Renamed)

/-! ## Names of programs -/

/-- The name of a variable or a parameter. -/
def Origin.objectName? : Origin → Option String
  | .object name => name
  | .function .. => none

def Origin.functionName? : Origin → Option String
  | .object _ => none
  | .function name .. => name

namespace Node

/-- The names that are declared for variables and parameters. -/
def objectNames (n : Node) : List String := n.origins.filterMap fun o => o.2.objectName?

def functionNames (n : Node) : List String := n.origins.filterMap fun o => o.2.functionName?

/-- New names for the variables of a program: different ones for different variables, and none of a function. -/
structure NewNames (n : Node) (f : String → String) : Prop where
  injective : ∀ x ∈ n.objectNames, ∀ y ∈ n.objectNames, f x = f y → x = y
  fresh : ∀ x ∈ n.objectNames, f x ∉ "printf" :: "scanf" :: n.functionNames

mutual

/-- What is true of the origins in a tree is true at each of its nodes. -/
theorem each_of_origins {P : Origin → Prop} (n : Node) (h : ∀ o ∈ n.origins, P o.2) :
    n.Each fun k => ∀ o, k.origin? = some o → P o := by
  match n with
  | .mk id kind p cs =>
    rw [origins] at h
    refine ⟨fun o ho => h (id, o) ?_, eachAll_of_origins cs fun o ho => h o (List.mem_append_right _ ho)⟩
    simp [ho]

theorem eachAll_of_origins {P : Origin → Prop} (ns : List Node) (h : ∀ o ∈ originsAll ns, P o.2) :
    EachAll (fun k => ∀ o, k.origin? = some o → P o) ns := by
  match ns with
  | [] => trivial
  | n :: ns =>
    rw [originsAll] at h
    exact ⟨each_of_origins n fun o ho => h o (List.mem_append_left _ ho),
      eachAll_of_origins ns fun o ho => h o (List.mem_append_right _ ho)⟩

end

variable {n : Node} {f : String → String}

theorem mem_objectNames {o : Nat × Origin} (ho : o ∈ n.origins) {x : String} (hx : o.2.objectName? = some x) : x ∈ n.objectNames :=
  List.mem_filterMap.2 ⟨o, ho, hx⟩

theorem mem_functionNames {o : Nat × Origin} (ho : o ∈ n.origins) {x : String} (hx : o.2.functionName? = some x) : x ∈ n.functionNames :=
  List.mem_filterMap.2 ⟨o, ho, hx⟩

theorem each_variable?_ne {x : String} (hx : x ∉ n.objectNames) : n.Each fun k => k.variable? ≠ some x := by
  have horigins : ∀ o ∈ n.origins, o.2.objectName? ≠ some x := fun o ho h => hx (mem_objectNames ho h)
  refine (n.each_of_origins (P := fun o => o.objectName? ≠ some x) horigins).mono fun k hk => ?_
  cases k with
  | declarator head => exact hk _ rfl
  | parameter head => exact hk _ rfl
  | _ => exact nofun

/-- New names of a program are a renaming of its variables. -/
def NewNames.renaming (h : n.NewNames f) (hfree : "printf" ∉ n.objectNames ∧ "scanf" ∉ n.objectNames) : Renaming where
  map := f
  objects := { x | x ∈ n.objectNames }
  functions := { x | x ∈ "printf" :: "scanf" :: n.functionNames }
  injOn := fun x hx y hy => h.injective x hx y hy
  fresh := h.fresh
  library := by simpa using hfree

/-- The renaming has all names that the program declares, also once the passes have filled in what they find. -/
theorem NewNames.covers (h : n.NewNames f) (hfree : "printf" ∉ n.objectNames ∧ "scanf" ∉ n.objectNames) {n1 : Node}
    (hlike : n1.bare = n.bare) : n1.Each (h.renaming hfree).Covers := by
  have horigins : ∀ o ∈ n1.origins, (∀ x, o.2.objectName? = some x → x ∈ (h.renaming hfree).objects) ∧
      ∀ x, o.2.functionName? = some x → x ∈ (h.renaming hfree).functions := by
    intro o ho
    rw [origins_congr hlike] at ho
    exact ⟨fun x hx => mem_objectNames ho hx, fun x hx => List.mem_cons_of_mem _ (List.mem_cons_of_mem _ (mem_functionNames ho hx))⟩
  refine (n1.each_of_origins (P := fun o => (∀ x, o.objectName? = some x → x ∈ (h.renaming hfree).objects) ∧
    ∀ x, o.functionName? = some x → x ∈ (h.renaming hfree).functions) horigins).mono fun k hk => ?_
  cases k with
  | declarator head => exact (hk _ rfl).1
  | parameter head => exact (hk _ rfl).1
  | function head => exact (hk _ rfl).2
  | _ => trivial

end Node

/-! ## The passes -/

section

variable {r : Renaming} {n n1 n2 n3 n' m : Node} {s s' s1 s2 : PassState}

theorem PassState.Alike.clean (h : s.Alike r s') (hs : s.Clean) : s'.Clean :=
  ⟨h.errors.trans hs.errors, h.marks.trans hs.marks⟩

/-- The passes keep no note of uses at functions. -/
theorem Accepted.plain (h : Accepted n n1 n2 n3 n' s1 s2 s') (hn : n.IsProgram)
    (hfree : "printf" ∉ n.objectNames ∧ "scanf" ∉ n.objectNames) : s2.table.Plain := by
  obtain ⟨T, -, -, -, -, -, hbuilt, -, hreplays, -⟩ :=
    h.places hn ((Node.each_variable?_ne hfree.1).and (Node.each_variable?_ne hfree.2))
  rw [((Check.checked_run n3).runs h.checked.runs).table] at hreplays
  intro v f hf
  have hsymbol := hreplays.symbol_eq v
  rw [hf] at hsymbol
  exact hbuilt.unseen_function v f hsymbol.symm

/-- The passes go over a tree with other names as over the tree itself. -/
theorem Accepted.renamed (h : Accepted n n1 n2 n3 n' s1 s2 s') (hplain : s2.table.Plain) (hcovers : n1.Each r.Covers)
    (hm : Renamed r.map n m) : ∃ m1 m2 m3 m' t1 t2 t', Accepted m m1 m2 m3 m' t1 t2 t' ∧ Renamed r.map n' m' ∧ s'.Alike r t' := by
  obtain ⟨m1, hmeasured, hm1⟩ := hm.withLengths h.measured
  have hstart : PassState.Alike r { nextId := n1.nextId } { nextId := m1.nextId } :=
    ⟨.empty r, rfl, rfl, rfl, hm1.nextId⟩
  obtain ⟨m2, t1, hfilled, hm2, ht1⟩ := Fill.echoes_visit n1 hm1 hcovers .nil _ _ _ _ hstart h.filled.runs h.filled.after.errors
  obtain ⟨m3, t2, hresolved, hm3, ht2⟩ := Resolve.echoes_run hm2 _ _ _ _ ht1 h.resolved.runs ⟨h.resolved.after.errors, hplain⟩
  obtain ⟨m', t', hchecked, hm', ht'⟩ := Check.mirrors_visit n3 hm3 .nil _ _ _ _ ht2 h.checked.runs
  exact ⟨m1, m2, m3, m', t1, t2, t', ⟨hmeasured, ⟨hfilled, hstart.clean h.filled.before, ht1.clean h.filled.after⟩,
    ⟨hresolved, ht1.clean h.resolved.before, ht2.clean h.resolved.after⟩,
    ⟨hchecked, ht2.clean h.checked.before, ht'.clean h.checked.after⟩⟩, hm', ht'⟩

end

/-! ## The code -/

/-- The code is the same under other names, if it is made to the end. -/
theorem generate_renamed {r : Renaming} {n n' : Node} {t t' : SymbolTable} (hn : Renamed r.map n n') (ht : t.Alike r t')
    (h : (generate n t).1 = none) : (generate n' t').1 = none ∧ (generate n' t').2.1 = (generate n t).2.1 := by
  obtain ⟨s, hruns, hcode⟩ := runs_of_generate h
  obtain ⟨⟨⟩, s', hruns', -, hs'⟩ := Emit.copies_program hn { table := t } { table := t' } () s ⟨ht, rfl, rfl⟩ hruns
  have hruns' : (Emit.program n').run.run { table := t' } = (.ok (), s') := hruns'
  unfold generate
  rw [hruns']
  exact ⟨rfl, (congrArg Array.toList hs'.code).trans hcode.symm⟩

/-- Names do not matter: a program that is compiled to the end without errors is so with other names for its variables and
parameters too, and the code is the same. -/
theorem code_eq_of_renamed {n m : Node} {f : String → String} {c : Compilation} {messages : Array String} (hn : n.IsProgram)
    (hfree : "printf" ∉ n.objectNames ∧ "scanf" ∉ n.objectNames) (hnames : n.NewNames f) (hm : n.Renamed f m)
    (h : compileNode n { stage := .done, messages } = .ok c) (he : Diagnostic.errorCount c.found = 0) (hfault : c.fault = none)
    (messages' : Array String) :
    ∃ c' code, compileNode m { stage := .done, messages := messages' } = .ok c' ∧ Diagnostic.errorCount c'.found = 0 ∧
      c'.fault = none ∧ c.code = some code ∧ c'.code = some code := by
  obtain ⟨n1, n2, n3, n', s1, s2, s', haccepted, hcode, hgenerate⟩ := accepted_of_compileNode h he
  obtain ⟨m1, m2, m3, m', t1, t2, t', hrenamed, hm', ht'⟩ :=
    haccepted.renamed (haccepted.plain hn hfree) (hnames.covers hfree haccepted.like.1) hm
  obtain ⟨hnone, hsame⟩ := generate_renamed hm' ht'.table (hgenerate.symm.trans hfault)
  obtain ⟨⟨text, htext⟩, text', htext'⟩ := haccepted.listings h
  obtain ⟨listing, hlisting⟩ := hm.listing htext
  obtain ⟨listing', hlisting'⟩ := hm'.listing htext'
  obtain ⟨c', hc', he', hcode', hfault'⟩ := hrenamed.compileNode hlisting hlisting' messages'
  exact ⟨c', _, hc', he', hfault'.trans hnone, hcode, hcode'.trans (congrArg some hsame)⟩

/-- A program in which a parameter has the name of a global, and a variable of a block that of a function. -/
def namesakesTree : Node :=
  let int : Specifiers := ⟨.int, true, false⟩
  let name (id : Nat) (x : String) : Node := .mk id (.name x none none) none []
  let declare (id : Nat) (x : String) (e : Node) : Node := .mk id (.variableDeclaration int) none
    [.mk (id + 1) (.declarator ⟨some x, [], none⟩) none [.mk (id + 2) (.initializerList false) none [e]]]
  let statement (id : Nat) (n : Node) : Node := .mk id .statement none [n]
  .mk 0 .program none [
    declare 1 "x" (.mk 4 (.integer 7) none []),
    .mk 5 (.function ⟨.definition, int, some "f", []⟩) none [
      .mk 6 .parameters none [.mk 7 (.parameter ⟨int, some "x", []⟩) none []],
      .mk 8 .statements none [statement 9 (.mk 10 .returnStmt none [name 11 "x"])]],
    .mk 12 (.function ⟨.main, int, some "main", []⟩) none [
      .mk 13 .parameters none [],
      .mk 14 .statements none [
        statement 15 (declare 16 "y" (.mk 19 (.call (some "f") none none) none [.mk 20 .arguments none [name 21 "x"]])),
        statement 22 (.mk 23 .statements none [
          statement 24 (declare 25 "f" (name 28 "y")),
          statement 29 (.mk 30 .assign none [name 31 "x", name 32 "f"])]),
        statement 33 (.mk 34 .returnStmt none [name 35 "y"])]]]

/-- Two of the names are exchanged, and the third is a new one. -/
def exchanged (x : String) : String := if x = "x" then "y" else if x = "y" then "x" else "z"

theorem code_eq_of_renamed_namesakes : namesakesTree.IsProgram ∧
    ("printf" ∉ namesakesTree.objectNames ∧ "scanf" ∉ namesakesTree.objectNames) ∧ namesakesTree.NewNames exchanged ∧
    namesakesTree.Renamed exchanged (namesakesTree.rename exchanged) ∧
    ∃ c c' code, compileNode namesakesTree { stage := .done } = .ok c ∧ Diagnostic.errorCount c.found = 0 ∧ c.fault = none ∧
      compileNode (namesakesTree.rename exchanged) { stage := .done } = .ok c' ∧ Diagnostic.errorCount c'.found = 0 ∧
      c'.fault = none ∧ c.code = some code ∧ c'.code = some code := by
  have hresult : (compileNode namesakesTree { stage := .done }).toOption.map (fun c => (Diagnostic.errorCount c.found, c.fault)) =
      some (0, none) := by decide +kernel
  have hprogram : namesakesTree.IsProgram := ⟨rfl, by decide, by decide⟩
  have hfree : "printf" ∉ namesakesTree.objectNames ∧ "scanf" ∉ namesakesTree.objectNames := by decide
  have hnames : namesakesTree.NewNames exchanged := ⟨by decide, by decide⟩
  obtain ⟨c, hc, heq⟩ := Option.map_eq_some_iff.1 hresult
  obtain ⟨he, hfault⟩ := Prod.mk.injEq .. ▸ heq
  have hc := toOption_eq_some.1 hc
  obtain ⟨c', code, h⟩ := code_eq_of_renamed hprogram hfree hnames (Node.renamed_rename _) hc he hfault #[]
  exact ⟨hprogram, hfree, hnames, Node.renamed_rename _, c, c', code, hc, he, hfault, h⟩

end MiniC
