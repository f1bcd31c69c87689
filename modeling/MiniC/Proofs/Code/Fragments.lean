import MiniC.Proofs.Code.Constructs
import MiniC.Proofs.Machine.Run
import MiniC.Proofs.Syntax.Formed

/-!
# Labels of fragments of code

A `Fragment` is code in which every jump goes to a label of the fragment, or to one that is open: the loop around is
left and continued at labels that stand elsewhere. The labels of a fragment are those that were made for it, and some
that were made before and are placed in it; no label stands in it twice. Each construct writes a fragment if its parts
do.
-/

namespace MiniC

open Machine (labels)

/-- Where an instruction jumps to. -/
def Instr.target? : Instr → Option Label
  | .ujp l | .fjp l => some l
  | _ => none

/-- What an instruction calls. -/
def Instr.callee? : Instr → Option Label
  | .cup _ l => some l
  | _ => none

def targets (ls : List Line) : List Label := (Machine.instrs ls).filterMap Instr.target?

def callees (ls : List Line) : List Label := (Machine.instrs ls).filterMap Instr.callee?

section

variable {l : Label} {i : Instr} {ls ls' : List Line}

@[simp] theorem targets_append (ls ls' : List Line) : targets (ls ++ ls') = targets ls ++ targets ls' := by simp [targets]

@[simp] theorem callees_append (ls ls' : List Line) : callees (ls ++ ls') = callees ls ++ callees ls' := by simp [callees]

@[simp] theorem targets_code (is : List Instr) : targets (Emit.code is) = is.filterMap Instr.target? := by
  simp [targets, Emit.code]

@[simp] theorem callees_code (is : List Instr) : callees (Emit.code is) = is.filterMap Instr.callee? := by
  simp [callees, Emit.code]

@[simp] theorem targets_label : targets (.label l :: ls) = targets ls := rfl

@[simp] theorem callees_label : callees (.label l :: ls) = callees ls := rfl

@[simp] theorem targets_blank : targets (.blank :: ls) = targets ls := rfl

@[simp] theorem callees_blank : callees (.blank :: ls) = callees ls := rfl

@[simp] theorem targets_nil : targets [] = [] := rfl

@[simp] theorem callees_nil : callees [] = [] := rfl

@[simp] theorem labels_emit_code (is : List Instr) : labels (Emit.code is) = [] := Machine.labels_map_instr is

end

/-- Labels that were made between two counts, each once. -/
structure Made (n n' : Nat) (own : List Label) : Prop where
  nodup : own.Nodup
  range : ∀ l ∈ own, ∃ k use, l = .numbered k use ∧ n < k ∧ k ≤ n'

structure Fragment (around : List Label) (called : Label → Prop) (placed : List Label) (n : Nat) (ls : List Line) (n' : Nat) :
    Prop where
  le : n ≤ n'
  owns : ∃ own, (labels ls).Perm (placed ++ own) ∧ Made n n' own
  jumps : ∀ l ∈ targets ls, l ∈ labels ls ∨ l ∈ around
  calls : ∀ l ∈ callees ls, called l

section

variable {around placed placed' : List Label} {called : Label → Prop} {n n1 n' : Nat} {ls ls' : List Line} {own own' : List Label}

theorem Made.append (h : Made n n1 own) (h' : Made n1 n' own') (hle : n ≤ n1) (hle' : n1 ≤ n') : Made n n' (own ++ own') := by
  refine ⟨List.nodup_append.2 ⟨h.nodup, h'.nodup, ?_⟩, fun l hl => ?_⟩
  · rintro l hl _ hl' rfl
    obtain ⟨k, use, rfl, -, hk⟩ := h.range l hl
    obtain ⟨k', use', heq, hk', -⟩ := h'.range _ hl'
    cases heq
    omega
  · obtain hl | hl := List.mem_append.1 hl
    · obtain ⟨k, use, rfl, hlt, hk⟩ := h.range l hl
      exact ⟨k, use, rfl, hlt, Nat.le_trans hk hle'⟩
    · obtain ⟨k, use, rfl, hlt, hk⟩ := h'.range l hl
      exact ⟨k, use, rfl, Nat.lt_of_le_of_lt hle hlt, hk⟩

/-- The label that was made before the others. -/
theorem Made.cons (h : Made (n + 1) n' own) (hle : n + 1 ≤ n') (use : LabelUse) : Made n n' (.numbered (n + 1) use :: own) := by
  refine ⟨List.nodup_cons.2 ⟨fun hmem => ?_, h.nodup⟩, fun l hl => ?_⟩
  · obtain ⟨k, use', heq, hlt, -⟩ := h.range _ hmem
    cases heq
    omega
  · obtain rfl | hl := List.mem_cons.1 hl
    · exact ⟨n + 1, use, rfl, Nat.lt_succ_self n, hle⟩
    · obtain ⟨k, use', rfl, hlt, hk⟩ := h.range l hl
      exact ⟨k, use', rfl, Nat.lt_of_succ_lt hlt, hk⟩

theorem made_nil (n n' : Nat) : Made n n' [] := ⟨List.nodup_nil, fun _ h => by cases h⟩

theorem Fragment.append (h : Fragment around called placed n ls n1) (h' : Fragment around called placed' n1 ls' n') :
    Fragment around called (placed ++ placed') n (ls ++ ls') n' := by
  obtain ⟨own, hperm, hown⟩ := h.owns
  obtain ⟨own', hperm', hown'⟩ := h'.owns
  refine ⟨Nat.le_trans h.le h'.le, ⟨own ++ own', ?_, hown.append hown' h.le h'.le⟩, fun l hl => ?_, fun l hl => ?_⟩
  · rw [Machine.labels_append]
    have hswap : (placed ++ own ++ (placed' ++ own')).Perm (placed ++ placed' ++ (own ++ own')) := by
      simp only [List.append_assoc]
      refine List.Perm.append_left placed ?_
      rw [← List.append_assoc, ← List.append_assoc]
      exact List.perm_append_comm.append_right own'
    exact (hperm.append hperm').trans hswap
  · rw [targets_append] at hl
    rw [Machine.labels_append, List.mem_append]
    obtain hl | hl := List.mem_append.1 hl
    · exact (h.jumps l hl).imp_left .inl
    · exact (h'.jumps l hl).imp_left .inr
  · rw [callees_append] at hl
    obtain hl | hl := List.mem_append.1 hl
    · exact h.calls l hl
    · exact h'.calls l hl

theorem fragment_lines (hlabels : labels ls = placed) (htargets : targets ls ⊆ placed ++ around) (hcallees : callees ls = []) :
    Fragment around called placed n ls n := by
  refine ⟨Nat.le_refl n, ⟨[], by rw [hlabels, List.append_nil], made_nil n n⟩, fun l hl => ?_, fun l hl => ?_⟩
  · rw [hlabels]
    exact List.mem_append.1 (htargets hl)
  · rw [hcallees] at hl
    cases hl

theorem Fragment.perm (h : Fragment around called placed n ls n') (hperm : placed.Perm placed') :
    Fragment around called placed' n ls n' := by
  obtain ⟨own, hlabels, hown⟩ := h.owns
  exact { h with owns := ⟨own, hlabels.trans (hperm.append_right own), hown⟩ }

theorem Fragment.mono {around' : List Label} (h : Fragment around called placed n ls n') (hsub : around ⊆ around') :
    Fragment around' called placed n ls n' := { h with jumps := fun l hl => (h.jumps l hl).imp_right fun hmem => hsub hmem }

/-- A label that was made for a fragment and is placed in it belongs to it. -/
theorem Fragment.close {use : LabelUse}
    (h : Fragment (.numbered (n + 1) use :: around) called (.numbered (n + 1) use :: placed) (n + 1) ls n') :
    Fragment around called placed n ls n' := by
  obtain ⟨own, hperm, hown⟩ := h.owns
  have hle := h.le
  refine ⟨by omega, ⟨.numbered (n + 1) use :: own, ?_, hown.cons hle use⟩, fun l hl => ?_, h.calls⟩
  · exact hperm.trans List.perm_middle.symm
  · obtain hl | hl := h.jumps l hl
    · exact .inl hl
    · obtain rfl | hl := List.mem_cons.1 hl
      · exact .inl (hperm.mem_iff.2 (by simp))
      · exact .inr hl

/-- A label that is made and not used. -/
theorem Fragment.unused (h : Fragment around called placed (n + 1) ls n') : Fragment around called placed n ls n' := by
  obtain ⟨own, hperm, hown⟩ := h.owns
  have hle := h.le
  refine ⟨by omega, ⟨own, hperm, hown.nodup, fun l hl => ?_⟩, h.jumps, h.calls⟩
  obtain ⟨k, use, rfl, hlt, hk⟩ := hown.range l hl
  exact ⟨k, use, rfl, by omega, hk⟩

end

/-! ## Rules -/

section

variable {α β : Type} {around placed : List Label} {called : Label → Prop} {m : EmitM α} {f : α → EmitM β}

theorem kept_fragment : Kept (Fragment around called []) :=
  ⟨fun _ => fragment_lines rfl (List.nil_subset _) rfl, fun _ _ _ _ _ h h' => h.append h'⟩

theorem admits_fragment : Admits (Fragment around called []) := by
  refine ⟨kept_fragment, fun i hi n => ?_⟩
  cases i <;> first | exact fragment_lines rfl (List.nil_subset _) rfl | cases hi

theorem makes_seq (h : Writes (Fragment around called []) m) (h' : ∀ a, Writes (Fragment around called placed) (f a)) :
    Writes (Fragment around called placed) (m >>= f) := .bind h h' fun _ _ _ _ _ h h' => h.append h'

theorem makes_jump {l : Label} (h : l ∈ around) : Writes (Fragment around called []) (Emit.instr (.ujp l)) :=
  writes_line fun _ => fragment_lines rfl (by simpa [targets, Instr.target?] using h) rfl

theorem makes_instrs {is : List Instr} (htargets : is.filterMap Instr.target? ⊆ around)
    (hcallees : is.filterMap Instr.callee? = []) : Writes (Fragment around called []) (Emit.instrs is) := by
  refine kept_fragment.instrs fun i hi n => fragment_lines rfl ?_ ?_
  · cases htarget : i.target? with
    | none => simp [targets, htarget]
    | some l => simpa [targets, htarget] using htargets (List.mem_filterMap.2 ⟨i, hi, htarget⟩)
  · simpa [callees] using List.filterMap_eq_nil_iff.1 hcallees i hi

theorem makes_place (l : Label) : Writes (Fragment around called [l]) (Emit.place l) :=
  writes_line fun _ => fragment_lines rfl (List.nil_subset _) rfl

theorem makes_place_seq {k : EmitM β} {l : Label} (h : Writes (Fragment around called placed) k) :
    Writes (Fragment around called (l :: placed)) (do Emit.place l; k) :=
  .bind (makes_place l) (fun _ => h) fun _ _ _ _ _ h h' => h.append h'

/-- A label is made, and placed by what follows. -/
theorem makes_newLabel {use : LabelUse} {f : Label → EmitM β} (placed' : Label → List Label)
    (hperm : ∀ l, (placed' l).Perm (l :: placed)) (h : ∀ l, Writes (Fragment (l :: around) called (placed' l)) (f l)) :
    Writes (Fragment around called placed) (Emit.newLabel use >>= f) := by
  refine writes_newLabel fun n => (h _).mono fun k ls n' hfragment hk => ?_
  subst hk
  exact (hfragment.perm (hperm _)).close

/-- The new label is placed behind the others. -/
theorem makes_lastLabel {use : LabelUse} {f : Label → EmitM β}
    (h : ∀ l, Writes (Fragment (l :: around) called (placed ++ [l])) (f l)) :
    Writes (Fragment around called placed) (Emit.newLabel use >>= f) :=
  makes_newLabel (fun l => placed ++ [l]) (fun _ => List.perm_append_comm) h

theorem makes_unused {use : LabelUse} {f : Label → EmitM β} (h : ∀ l, Writes (Fragment around called placed) (f l)) :
    Writes (Fragment around called placed) (Emit.newLabel use >>= f) := by
  refine writes_newLabel fun n => (h _).mono fun k ls n' hfragment hk => ?_
  subst hk
  exact hfragment.unused

theorem makes_lines {ls : List Line} (hlabels : labels ls = placed) (htargets : targets ls ⊆ placed ++ around)
    (hcallees : callees ls = []) : Writes (Fragment around called placed) (Emit.lines ls) :=
  writes_lines fun _ => fragment_lines hlabels htargets hcallees

end

/-! ## Constructs with labels -/

/-- The labels at which the loop around is continued and left are open. -/
def Setting.Within (setting : Setting) (around : List Label) : Prop :=
  (∀ l, setting.again = some l → l ∈ around) ∧ ∀ l, setting.after = some l → l ∈ around

theorem Setting.Within.cons {setting : Setting} {around : List Label} (h : setting.Within around) (l : Label) :
    setting.Within (l :: around) :=
  ⟨fun k hk => List.mem_cons_of_mem l (h.1 k hk), fun k hk => List.mem_cons_of_mem l (h.2 k hk)⟩

/-- The coders write fragments in every setting. -/
def Sound (called : Label → Prop) (cs : List Coder) : Prop :=
  ∀ around (setting : Setting), setting.Within around →
    Coder.MeetsAll (Fragment around called []) setting.again setting.after cs

namespace Emit

variable {around : List Label} {called : Label → Prop} {setting : Setting} {c : Coder} {cs : List Coder}

theorem makes_run (hcs : Sound called cs) (hs : setting.Within around) (hc : c ∈ cs) :
    Writes (Fragment around called []) (c.run setting) := (meets_of_mem (hcs around setting hs) hc).run rfl rfl

theorem makes_jump_to {target : Option Label} (h : ∀ l, target = some l → l ∈ around) :
    Writes (Fragment around called []) (jump target) := by
  cases target with
  | none => exact .throw _
  | some l => exact makes_jump (h l rfl)

/-- A test that jumps if it fails. -/
theorem makes_test {cell : Cell} {l : Label} (h : l ∈ around) :
    Writes (Fragment around called []) (instrs [.conv cell .bool, .fjp l]) :=
  makes_instrs (by simpa [List.filterMap_cons, Instr.target?] using h) rfl

theorem makes_choice (hcs : Sound called cs) (hs : setting.Within around) :
    Writes (Fragment around called []) (choice cs setting) := by
  by_cases hthree : ∃ a b c, cs = [a, b, c]
  · obtain ⟨a, b, second, rfl⟩ := hthree
    refine makes_lastLabel fun otherwise => makes_lastLabel fun after => ?_
    have hinside : ({ setting with address := false } : Setting).Within (after :: otherwise :: around) :=
      (hs.cons otherwise).cons after
    exact .lift fun condition hcondition => makes_seq (makes_run hcs hinside (mem_of_nth hcondition)) fun _ =>
      .lift fun cell _ => makes_seq (makes_test (by simp)) fun _ => .lift fun first hfirst =>
        makes_seq (makes_run hcs hinside (mem_of_nth hfirst)) fun _ => makes_seq (makes_jump (by simp)) fun _ =>
          makes_place_seq (makes_seq (makes_run hcs hinside (by simp)) fun _ => makes_place after)
  · refine makes_lastLabel fun otherwise => makes_unused fun after => ?_
    have hinside : ({ setting with address := false } : Setting).Within (otherwise :: around) := hs.cons otherwise
    refine .lift fun condition hcondition => makes_seq (makes_run hcs hinside (mem_of_nth hcondition)) fun _ =>
      .lift fun cell _ => makes_seq (makes_test (by simp)) fun _ => .lift fun first hfirst =>
        makes_seq (makes_run hcs hinside (mem_of_nth hfirst)) fun _ => ?_
    split
    next a b second => exact absurd ⟨a, b, second, rfl⟩ hthree
    next => exact makes_place otherwise

theorem makes_whileLoop (hcs : Sound called cs) : Writes (Fragment around called []) (whileLoop cs setting) := by
  refine makes_lastLabel fun again => makes_lastLabel fun after => ?_
  have hinside : ({ setting with again := some again, after := some after } : Setting).Within (after :: again :: around) :=
    ⟨by simp, by simp⟩
  exact makes_place_seq (.lift fun condition hcondition => makes_seq (makes_run hcs hinside (mem_of_nth hcondition)) fun _ =>
    .lift fun cell _ => makes_seq (makes_test (by simp)) fun _ => .lift fun body hbody =>
      makes_seq (makes_run hcs hinside (mem_of_nth hbody)) fun _ => makes_seq (makes_jump (by simp)) fun _ => makes_place after)

theorem makes_doWhile (hcs : Sound called cs) (hs : setting.Within around) :
    Writes (Fragment around called []) (doWhile cs setting) := by
  refine makes_lastLabel fun again => makes_lastLabel fun after => ?_
  have hinside : setting.Within (after :: again :: around) := (hs.cons again).cons after
  have hfjp : Writes (Fragment (after :: again :: around) called []) (instr (.fjp after)) :=
    writes_line fun _ => fragment_lines rfl (by simp [targets, Instr.target?]) rfl
  exact .lift fun condition hcondition => makes_seq (makes_run hcs hinside (mem_of_nth hcondition)) fun _ =>
    .lift fun cell _ => makes_seq (admits_fragment.one trivial) fun _ => makes_place_seq (.lift fun body hbody =>
      makes_seq (makes_run hcs hinside (mem_of_nth hbody)) fun _ => makes_seq hfjp fun _ =>
        makes_seq (makes_run hcs hinside (mem_of_nth hcondition)) fun _ => makes_seq (makes_jump (by simp)) fun _ =>
          makes_place after)

theorem mem_of_headerCoders {a b c : Bool} {x y z : Option Coder} {body : List Coder}
    (h : headerCoders a b c cs = (x, y, z, body)) :
    (∀ d ∈ x, d ∈ cs) ∧ (∀ d ∈ y, d ∈ cs) ∧ (∀ d ∈ z, d ∈ cs) ∧ ∀ d ∈ body, d ∈ cs := by
  obtain ⟨rfl, rfl, rfl, rfl⟩ : (if a then cs[0]? else none) = x ∧ (if b then cs[a.toNat]? else none) = y ∧
      (if c then cs[a.toNat + b.toNat]? else none) = z ∧ cs.drop (a.toNat + b.toNat + c.toNat) = body := by
    simpa [headerCoders] using h
  have hget : ∀ (p : Bool) (i : Nat), ∀ d ∈ (if p then cs[i]? else none), d ∈ cs := by
    intro p i d hd
    cases p with
    | false => cases hd
    | true => exact List.mem_of_getElem? hd
  exact ⟨hget a 0, hget b _, hget c _, fun d hd => List.mem_of_mem_drop hd⟩

theorem makes_forLoop {a b c : Bool} (hcs : Sound called cs) : Writes (Fragment around called []) (forLoop a b c cs setting) := by
  refine makes_lastLabel fun again => makes_newLabel (fun l => [l, again]) (fun _ => .refl _) fun test =>
    makes_lastLabel fun after => ?_
  have hinside : ({ setting with again := some again, after := some after } : Setting).Within
      (after :: test :: again :: around) := ⟨by simp, by simp⟩
  have hfjp : Writes (Fragment (after :: test :: again :: around) called []) (instr (.fjp after)) :=
    writes_line fun _ => fragment_lines rfl (by simp [targets, Instr.target?]) rfl
  rcases hheader : headerCoders a b c cs with ⟨initializer, condition, iteration, body⟩
  obtain ⟨hinitializer, hcondition, hiteration, hbody⟩ := mem_of_headerCoders hheader
  have hpart : ∀ part : Option Coder, (∀ d ∈ part, d ∈ cs) → Writes (Fragment (after :: test :: again :: around) called [])
      (runOption { setting with again := some again, after := some after } part) := by
    intro part hpart
    cases part with
    | none => exact kept_fragment.pure _
    | some d => exact makes_run hcs hinside (hpart d rfl)
  have hrest : Writes (Fragment (after :: test :: again :: around) called [again, after]) (do
      instr (.fjp after)
      runAll { setting with again := some again, after := some after } body
      place again
      runOption { setting with again := some again, after := some after } iteration
      instr (.ujp test)
      place after
      onTable SymbolTable.closeScope) :=
    makes_seq hfjp fun _ => makes_seq (kept_fragment.runAll fun d hd => makes_run hcs hinside (hbody d hd)) fun _ =>
      makes_place_seq (makes_seq (hpart iteration hiteration) fun _ => makes_seq (makes_jump (by simp)) fun _ =>
        makes_place_seq ((silent_onTable _).writes kept_fragment.nil))
  refine makes_seq ((silent_onTable _).writes kept_fragment.nil) fun _ => makes_seq (hpart initializer hinitializer) fun _ =>
    makes_place_seq ?_
  cases condition with
  | none => exact makes_seq (admits_fragment.one .truth) fun _ => hrest
  | some d =>
    exact makes_seq (makes_run hcs hinside (hcondition d rfl)) fun _ => .lift fun cell _ =>
      makes_seq (admits_fragment.one trivial) fun _ => hrest

/-! ## Input and output -/

section

variable {value : EmitM Unit} (hvalue : Writes (Fragment around called []) value)

include hvalue

theorem makes_value {around' : List Label} (hsub : around ⊆ around') : Writes (Fragment around' called []) value :=
  hvalue.mono fun _ _ _ h => h.mono hsub

theorem makes_outPaddedInt (width : Int) : Writes (Fragment around called []) (outPaddedInt width value) := by
  refine makes_lastLabel fun digitLoop => makes_lastLabel fun afterDigitLoop => makes_lastLabel fun padLoop =>
    makes_unused fun _ => makes_lastLabel fun noPadding => ?_
  refine makes_seq (admits_fragment.one (.number (.inr (.inl rfl)) 2)) fun _ =>
    makes_seq (makes_value hvalue fun l hl => by simp [hl]) fun _ => makes_lines ?_ ?_ ?_
  · simp [paddedInt, countDigits, padUp, repeated]
  · simp [paddedInt, countDigits, excess, padUp, repeated, loadCell, setCell, stepCell, blank, List.filterMap_cons, Instr.target?]
  · simp [paddedInt, countDigits, excess, padUp, repeated, loadCell, setCell, stepCell, blank, List.filterMap_cons, Instr.callee?]

theorem makes_scanString : Writes (Fragment around called []) (scanString value) := by
  refine makes_lastLabel fun scanLoop => makes_lastLabel fun scanDone => makes_seq (makes_value hvalue fun l hl => by simp [hl]) fun _ => makes_lines ?_ ?_ ?_
  · simp
  · simp [List.filterMap_cons, Instr.target?]
  · simp [List.filterMap_cons, Instr.callee?]

/-- The end of the code that writes a string, behind lines that fill the width. -/
theorem makes_outLoop {padding : List Line} {placed : List Label} (hlabels : labels padding = placed)
    (htargets : targets padding ⊆ placed ++ around) (hcallees : callees padding = []) :
    Writes (Fragment around called placed) (outStringAfter padding value) := by
  refine makes_lastLabel fun outLoop => makes_lastLabel fun afterOutLoop =>
    makes_seq (admits_fragment.one (.number (.inr (.inl rfl)) 1)) fun _ =>
    makes_seq (makes_value hvalue fun l hl => by simp [hl]) fun _ => makes_lines ?_ ?_ ?_
  · simp [paddedString, hlabels, outChars, repeated]
  · simp only [paddedString, outChars, repeated, targets_append, targets_code, targets_label, targets_blank, targets_nil, List.append_subset]
    simp [loadCell, setCell, List.filterMap_cons, Instr.target?]
    intro l hl
    obtain hl | hl := List.mem_append.1 (htargets hl) <;> simp [hl]
  · simp [paddedString, hcallees, outChars, repeated, loadCell, setCell, List.filterMap_cons, Instr.callee?]

theorem makes_outString (width : Int) : Writes (Fragment around called []) (outString width value) := by
  refine .ite (fun _ => ?_) fun _ => ?_
  · simp only [padString, bind_assoc, pure_bind]
    refine makes_lastLabel fun countLoop => makes_lastLabel fun afterCountLoop => makes_lastLabel fun paddingLoop =>
      makes_lastLabel fun afterPaddingLoop => makes_outLoop (makes_value hvalue fun l hl => by simp [hl]) ?_ ?_ ?_
    · simp [stringPadding, countChars, padDown, repeated]
    · simp [stringPadding, countChars, excess, padDown, repeated, loadCell, stepCell, blank, List.filterMap_cons, Instr.target?]
    · simp [stringPadding, countChars, excess, padDown, repeated, loadCell, stepCell, blank, List.filterMap_cons, Instr.callee?]
  · simp only [pure_bind]
    exact makes_outLoop hvalue rfl (List.nil_subset _) rfl

end

theorem admitsLoops_fragment : AdmitsLoops (Fragment around called []) :=
  ⟨admits_fragment, fun width _ h => makes_outPaddedInt h width, fun width _ h => makes_outString h width, fun _ h =>
    makes_scanString h⟩

/-! ## Trees -/

/-- A call that is not one of input or output has a label that may be called. -/
def Kind.callsIn (called : Label → Prop) : Kind → Prop
  | .call _ (some f) _ => f.isLibrary = false → called (.function f.name)
  | _ => True

theorem Kind.callsIn_true (k : Kind) : Kind.callsIn (fun _ => True) k := by
  unfold Kind.callsIn
  split
  · exact fun _ => trivial
  · trivial

theorem makes_codeOf {n : Node} (hcalls : Kind.callsIn called n.kind) (hkind : n.kind.isDefinition = false)
    (hcs : Sound called cs) (hs : setting.Within around) : Writes (Fragment around called []) (codeOf n cs setting) := by
  by_cases hcontrol : isControl n.kind = true
  · have hinside : ({ setting with above := n :: setting.above } : Setting).Within around := hs
    have hchoice := makes_choice hcs hinside
    obtain ⟨id, kind, o, ns⟩ := n
    cases kind with
    | breakStmt => exact makes_jump_to hs.2
    | continueStmt => exact makes_jump_to hs.1
    | ifStmt => exact hchoice
    | forLoop a b c => exact makes_forLoop hcs
    | whileLoop => exact makes_whileLoop hcs
    | doWhile => exact makes_doWhile hcs hinside
    | conditional => exact writes_dropping admits_fragment hchoice
    | function head =>
      have hnot : head.form.isDefinition = false := hkind
      exact absurd hnot (by simpa [isControl, Node.kind] using hcontrol)
    | _ => cases hcontrol
  · refine writes_codeOf admitsLoops_fragment (Bool.eq_false_iff.2 hcontrol) (hcs around setting hs) ?_
    intro name f pieces heq hlibrary k i
    rw [heq] at hcalls
    refine ⟨Nat.le_refl i, ⟨[], .refl _, made_nil i i⟩, by simp [targets, Instr.target?], ?_⟩
    simpa [callees, Instr.callee?] using hcalls hlibrary

mutual

/-- A tree without functions writes a fragment. -/
theorem sound_coder (n : Node) (h : n.Each fun k => Kind.callsIn called k ∧ k.isDefinition = false) :
    Sound called [coder n] := by
  match n with
  | .mk id kind o ns =>
    obtain ⟨⟨hcalls, hkind⟩, hns⟩ := h
    have hcs := sound_coders ns hns
    intro around setting hs
    refine ⟨⟨fun inner hagain hafter => ?_, hcs around setting hs⟩, trivial⟩
    have hinner : inner.Within around := ⟨fun l hl => hs.1 l (hagain ▸ hl), fun l hl => hs.2 l (hafter ▸ hl)⟩
    exact makes_codeOf hcalls hkind hcs hinner

theorem sound_coders (ns : List Node) (h : Node.EachAll (fun k => Kind.callsIn called k ∧ k.isDefinition = false) ns) :
    Sound called (coders ns) := by
  match ns with
  | [] => exact fun _ _ _ => trivial
  | n :: ns =>
    obtain ⟨hn, hns⟩ := h
    intro around setting hs
    exact ⟨(sound_coder n hn around setting hs).1, sound_coders ns hns around setting hs⟩

end

end Emit

end MiniC
