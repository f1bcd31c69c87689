import MiniC.Compile
import MiniC.Proofs.Pass.Quiet
import MiniC.Proofs.Pass.Trees

/-!
# Programs without errors

A compilation that ends with no error has run all passes quietly, and the code is the one that is made from the tree
and the table that the passes leave.
-/

namespace MiniC

/-- The passes go over a tree without an error; the last tree and state are those that code is made from. -/
structure Accepted (n n1 n2 n3 n' : Node) (s1 s2 s' : PassState) : Prop where
  measured : n.withLengths none = .ok n1
  filled : Quiet (Fill.run n1) { nextId := n1.nextId } n2 s1
  resolved : Quiet (Resolve.run n2) s1 n3 s2
  checked : Quiet (Check.run n3) s2 n' s'

section

variable {α : Type} {c c' : Compilation} {stage : Stage} {n n' : Node} {s s' : PassState} {pass : PassM Node}

theorem step_eq_ok {result : Except Fault α} {a : α} (h : c.step stage result = .ok a) : result = .ok a := by
  cases result with
  | error f => cases h
  | ok b => cases h; rfl

theorem runPass_eq_ok (h : c.runPass stage pass s = .ok (n', s', c')) :
    Runs pass s n' s' ∧ c'.fault = c.fault ∧
      c'.diagnostics = c.diagnostics ++ (s'.found.toList.drop s.found.size).map (stage, ·) := by
  unfold Compilation.runPass at h
  rcases hrun : pass.run.run s with ⟨_ | m, s1⟩
  · simp [hrun] at h
  · simp only [hrun, Except.ok.injEq, Prod.mk.injEq] at h
    obtain ⟨rfl, rfl, rfl⟩ := h
    exact ⟨hrun, rfl, rfl⟩

theorem runPass_of_runs (c : Compilation) (stage : Stage) (h : Runs pass s n' s') : ∃ c', c.runPass stage pass s = .ok (n', s', c') ∧ c'.fault = c.fault := by
  have h : pass.run.run s = (.ok n', s') := h
  unfold Compilation.runPass
  rw [h]
  exact ⟨_, rfl, rfl⟩

/-- The messages of a compilation after a pass, if they were those of the state before. -/
theorem found_of_runPass (hpass : Moves Onward pass) (hfound : c.found = s.found.toList)
    (h : c.runPass stage pass s = .ok (n', s', c')) : c'.found = s'.found.toList := by
  obtain ⟨hruns, -, hdiagnostics⟩ := runPass_eq_ok h
  obtain ⟨new, hnew⟩ := (hpass.runs hruns).found
  have hdrop : s'.found.toList.drop s.found.size = new := by
    rw [← hnew, ← Array.length_toList, List.drop_left]
  have hmap : (new.map (stage, ·)).map (·.2) = new := by simp [Function.comp_def]
  calc c'.found = c.found ++ (new.map (stage, ·)).map (·.2) := by
        rw [Compilation.found, hdiagnostics, hdrop, List.map_append]; rfl
    _ = s'.found.toList := by rw [hmap, hfound, hnew]

end

/-- A compilation that ends without errors: the passes were quiet, and what is left is the code. -/
theorem accepted_of_compileNode {n : Node} {c : Compilation} {messages : Array String}
    (h : compileNode n { stage := .done, messages } = .ok c) (he : Diagnostic.errorCount c.found = 0) :
    ∃ n1 n2 n3 n' s1 s2 s', Accepted n n1 n2 n3 n' s1 s2 s' ∧
      c.code = some (generate n' s'.table).2.1 ∧ c.fault = (generate n' s'.table).1 := by
  unfold compileNode at h
  obtain ⟨text, -, h⟩ := except_bind_eq_ok.1 h
  obtain ⟨n1, hmeasured, h⟩ := except_bind_eq_ok.1 h
  obtain ⟨⟨n3, s2, c2⟩, hscope, h⟩ := except_bind_eq_ok.1 h
  obtain ⟨⟨n', s', c'⟩, htypes, h⟩ := except_bind_eq_ok.1 h
  obtain ⟨text', -, h⟩ := except_bind_eq_ok.1 h
  have hpasses : Moves Onward (do Resolve.run (← Fill.run n1)) :=
    .bind (Fill.onward_run n1) fun n2 => Resolve.onward_run n2
  have hfound2 : c2.found = s2.found.toList := found_of_runPass hpasses rfl hscope
  have hfound : c'.found = s'.found.toList := found_of_runPass (Check.checked_run n3).onward (by exact hfound2) htypes
  obtain ⟨hruns2, hfault2, -⟩ := runPass_eq_ok hscope
  obtain ⟨hruns', hfault', -⟩ := runPass_eq_ok htypes
  have hfault : c'.fault = none := hfault'.trans hfault2
  have hc : Diagnostic.errorCount c'.found = 0 ∧ c.code = some (generate n' s'.table).2.1 ∧
      c.fault = (generate n' s'.table).1 := by
    dsimp only at h
    by_cases hzero : Diagnostic.errorCount c'.found = 0
    · rw [if_pos (by exact hzero)] at h
      rcases hgen : generate n' s'.table with ⟨_ | f, code, table⟩ <;> rw [hgen] at h <;> cases h
      · exact ⟨hzero, rfl, hfault⟩
      · exact ⟨hzero, rfl, rfl⟩
    · rw [if_neg (by exact hzero)] at h
      cases h
      exact absurd he hzero
  have herrors : s'.errors = 0 := by rw [PassState.errors, ← hfound]; exact hc.1
  have hstart : ({ nextId := n1.nextId } : PassState).Clean := ⟨rfl, rfl⟩
  have hclean' : s'.Clean := ⟨herrors, ((hpasses.runs hruns2).trans ((Check.checked_run n3).onward.runs hruns')).clean
    herrors rfl⟩
  have hclean2 : s2.Clean := hstart.between hclean' (hpasses.runs hruns2) ((Check.checked_run n3).onward.runs hruns')
  have hquiet : Quiet (do Resolve.run (← Fill.run n1)) { nextId := n1.nextId } n3 s2 := ⟨hruns2, hstart, hclean2⟩
  obtain ⟨n2, s1, hfilled, hresolved⟩ := hquiet.bind (Fill.onward_run n1) fun n2 => Resolve.onward_run n2
  exact ⟨n1, n2, n3, n', s1, s2, s', ⟨step_eq_ok hmeasured, hfilled, hresolved, hruns', hclean2, hclean'⟩, hc.2⟩

section

variable {n n1 n2 n3 n' : Node} {s1 s2 s' : PassState}

/-- Both listings of a compilation are made, if it does not stop. -/
theorem Accepted.listings (h : Accepted n n1 n2 n3 n' s1 s2 s') {c : Compilation} {messages : Array String}
    (hc : compileNode n { stage := .done, messages } = .ok c) : (∃ text, n.listing = .ok text) ∧ ∃ text, n'.listing = .ok text := by
  unfold compileNode at hc
  obtain ⟨text, htext, hc⟩ := except_bind_eq_ok.1 hc
  obtain ⟨m1, hmeasured, hc⟩ := except_bind_eq_ok.1 hc
  obtain ⟨⟨m3, t2, c2⟩, hscope, hc⟩ := except_bind_eq_ok.1 hc
  obtain ⟨⟨m', t', c'⟩, htypes, hc⟩ := except_bind_eq_ok.1 hc
  obtain ⟨text', htext', -⟩ := except_bind_eq_ok.1 hc
  obtain rfl : n1 = m1 := Except.ok.inj (h.measured.symm.trans (step_eq_ok hmeasured))
  have hresolved := (runPass_eq_ok hscope).1
  have hchecked := (runPass_eq_ok htypes).1
  have hruns := runs_bind.2 ⟨n2, s1, h.filled.runs, h.resolved.runs⟩
  obtain ⟨rfl, rfl⟩ : n3 = m3 ∧ s2 = t2 := by simpa [Runs] using hruns.symm.trans hresolved
  obtain ⟨rfl, -⟩ : n' = m' ∧ s' = t' := by simpa [Runs] using h.checked.runs.symm.trans hchecked
  exact ⟨⟨text, step_eq_ok htext⟩, text', step_eq_ok htext'⟩

/-- A compilation ends without errors, if the passes are quiet and both listings can be made. -/
theorem Accepted.compileNode (h : Accepted n n1 n2 n3 n' s1 s2 s') {text text' : String} (htext : n.listing = .ok text)
    (htext' : n'.listing = .ok text') (messages : Array String) :
    ∃ c, compileNode n { stage := .done, messages } = .ok c ∧ Diagnostic.errorCount c.found = 0 ∧
      c.code = some (generate n' s'.table).2.1 ∧ c.fault = (generate n' s'.table).1 := by
  have hpasses : Moves Onward (do Resolve.run (← Fill.run n1)) :=
    .bind (Fill.onward_run n1) fun n2 => Resolve.onward_run n2
  obtain ⟨c2, hscope, hfault2⟩ := runPass_of_runs { stage := .done, messages, tree := some n, treeText := some text } .scope
    (runs_bind.2 ⟨n2, s1, h.filled.runs, h.resolved.runs⟩)
  obtain ⟨c', htypes, hfault'⟩ := runPass_of_runs { c2 with scopes := some s2.table.listing } .types h.checked.runs
  have hfound2 : c2.found = s2.found.toList := found_of_runPass hpasses rfl hscope
  have hfound : c'.found = s'.found.toList := found_of_runPass (Check.checked_run n3).onward (by exact hfound2) htypes
  have hzero : Diagnostic.errorCount c'.found = 0 := by rw [hfound]; exact h.checked.after.errors
  have hfault : c'.fault = none := hfault'.trans hfault2
  have hzero' : Diagnostic.errorCount { c' with checkedText := some text', symbols := some s'.table.listing }.found = 0 := hzero
  unfold MiniC.compileNode
  simp only [except_bind_eq_ok, htext, h.measured, Compilation.step]
  rcases hgenerate : generate n' s'.table with ⟨_ | f, code, table⟩
  all_goals
    apply Exists.intro
    refine ⟨⟨text, rfl, n1, rfl, (n3, s2, c2), hscope, (n', s', c'), htypes, text', by rw [htext'], ?_⟩, ?_⟩
    · rw [if_pos hzero', hgenerate]
      rfl
  · exact ⟨hzero, rfl, hfault⟩
  · exact ⟨hzero, rfl, rfl⟩

/-- The first two passes only fill in what they find. -/
theorem Accepted.like (h : Accepted n n1 n2 n3 n' s1 s2 s') : n1.bare = n.bare ∧ n2.bare = n.bare ∧ n3.bare = n.bare := by
  have h1 : n1.bare = n.bare := withLengths_bare h.measured
  have h2 : n2.bare = n.bare := (Fill.bare_run h.filled.runs).trans h1
  exact ⟨h1, h2, (Resolve.bare_run h.resolved.runs).trans h2⟩

theorem Accepted.follows (h : Accepted n n1 n2 n3 n' s1 s2 s') (hn : n.IsProgram) : Follows false [n3] [n'] :=
  Check.follows_run (hn.congr h.like.2.2).nodup h.checked.runs

end

end MiniC
