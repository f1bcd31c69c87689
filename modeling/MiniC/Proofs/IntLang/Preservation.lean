import MiniC.Proofs.IntLang.Generating.Program
import MiniC.Proofs.IntLang.Labels
import MiniC.Proofs.IntLang.Program
import MiniC.Proofs.IntLang.Unchanged

/-!
# The meaning of programs is kept

A program of the integer language that is compiled without errors does on the machine what it says: if it runs to a
value, its code halts with that value on top of the stack, and the cells of the globals hold what the globals hold.
-/

namespace MiniC.IntLang

open Machine

variable {n : Node} {p : Program} {c : Compilation} {messages : Array String}

/-- The code of a program that is compiled without errors, and that it can be loaded. -/
theorem code_of_compileNode (hp : readProgram n = some p)
    (hc : compileNode n { stage := .done, messages } = .ok c) (he : Diagnostic.errorCount c.found = 0) :
    c.code = some (programCode p) ∧ c.fault = none ∧ Loads (programCode p) := by
  obtain ⟨id, kind, o, ns⟩ := n
  cases kind with
  | program =>
    obtain ⟨n1, n2, n3, n', s1, s2, s', hacc, hcode, hfault⟩ := accepted_of_compileNode hc he
    have hitems := items_of_readItems .start hp
    obtain rfl := Except.ok.inj ((withLengths_program hitems).symm.trans hacc.measured)
    obtain ⟨ns2, T, rfl, htable, hT, hcells, hnames, hitems2⟩ := fill_program hitems hacc.filled rfl
    obtain ⟨ns3, rfl, hreplays, hitems3⟩ := resolve_program hT hitems2 hacc.resolved htable
    obtain ⟨rfl, hsame⟩ := check_program hitems3 hacc.checked.runs
    obtain ⟨t', hgenerate⟩ := generate_eq hT hcells hreplays hitems3
    have hloads := hitems3.loads (n := .mk id .program o ns3) hnames hgenerate
    rw [hsame, hgenerate] at hcode hfault
    exact ⟨hcode, hfault, hloads⟩
  | _ => cases hp

/-- A program that runs to a value does so on the machine. -/
theorem halts_of_compileNode {fuel : Nat} {v : Int} {m : Mem} (hp : readProgram n = some p)
    (hc : compileNode n { stage := .done, messages } = .ok c) (he : Diagnostic.errorCount c.found = 0)
    (hrun : run fuel p = some (v, m)) :
    ∃ code s, c.code = some code ∧ c.fault = none ∧ Loads code ∧ Halts code {} s ∧ s.top = .int v ∧
      ∀ i u, i < globalsCount p → m.globals i = some u → s.store (5 + i) = .int u := by
  obtain ⟨hcode, hfault, hload⟩ := code_of_compileNode hp hc he
  obtain ⟨s, hhalts, htop, hglobals⟩ := halts_of_run hload hrun
  exact ⟨programCode p, s, hcode, hfault, hload, hhalts, htop, hglobals⟩

/-- `int g = 2; int f(int x) { return x * g; } int main() { int i = 0; while (i < 3) i = i + 1; return f(i); }` -/
def sampleTree : Node :=
  let int : Specifiers := ⟨.int, true, false⟩
  let name (id : Nat) (x : String) : Node := .mk id (.name x none none) none []
  let number (id : Nat) (v : Int) : Node := .mk id (.integer v) none []
  let declare (id : Nat) (x : String) (e : Node) : Node := .mk id (.variableDeclaration int) none
    [.mk (id + 1) (.declarator ⟨some x, [], none⟩) none [.mk (id + 2) (.initializerList false) none [e]]]
  let statement (id : Nat) (n : Node) : Node := .mk id .statement none [n]
  .mk 0 .program none [
    declare 1 "g" (number 4 2),
    .mk 5 (.function ⟨.definition, int, some "f", []⟩) none [
      .mk 6 .parameters none [.mk 7 (.parameter ⟨int, some "x", []⟩) none []],
      .mk 8 .statements none [
        statement 9 (.mk 10 .returnStmt none [.mk 11 (.arith .mul) none [name 12 "x", name 13 "g"]])]],
    .mk 14 (.function ⟨.main, int, some "main", []⟩) none [
      .mk 15 .parameters none [],
      .mk 16 .statements none [
        statement 17 (declare 18 "i" (number 21 0)),
        statement 22 (.mk 23 .whileLoop none [
          .mk 24 (.compare .lt) none [name 25 "i", number 26 3],
          statement 27 (.mk 28 .assign none [name 29 "i", .mk 30 (.arith .add) none [name 31 "i", number 32 1]])]),
        statement 33 (.mk 34 .returnStmt none [
          .mk 35 (.call (some "f") none none) none [.mk 36 .arguments none [name 37 "i"]]])]]]

theorem halts_of_compileNode_sample : ∃ p c m, readProgram sampleTree = some p ∧
    compileNode sampleTree { stage := .done } = .ok c ∧ Diagnostic.errorCount c.found = 0 ∧
    run 20 p = some (6, m) ∧ ∃ code s, c.code = some code ∧ Halts code {} s ∧ s.top = .int 6 := by
  have hresult : ((readProgram sampleTree).bind fun p => (run 20 p).map (·.1)) = some 6 := by decide +kernel
  have herrors : (compileNode sampleTree { stage := .done }).toOption.map (Diagnostic.errorCount ·.found) = some 0 := by
    decide +kernel
  obtain ⟨p, hp, hrun⟩ := Option.bind_eq_some_iff.1 hresult
  obtain ⟨⟨_, m⟩, hrun, rfl⟩ := Option.map_eq_some_iff.1 hrun
  obtain ⟨c, hc, he⟩ := Option.map_eq_some_iff.1 herrors
  have hc := toOption_eq_some.1 hc
  obtain ⟨code, s, hcode, -, -, hhalts, htop, -⟩ := halts_of_compileNode hp hc he hrun
  exact ⟨p, c, m, hp, hc, he, hrun, code, s, hcode, hhalts, htop⟩

end MiniC.IntLang
