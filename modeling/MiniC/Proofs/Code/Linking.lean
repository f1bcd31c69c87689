import MiniC.Proofs.Code.Fragments
import MiniC.Proofs.Scope.Callees

/-!
# Labels of programs

The code of a program is a start, and then the code of one function after the other, each behind its own label. A
program that is compiled without errors has every label once; it jumps only to labels in the same function, and calls
only functions that are there.
-/

namespace MiniC

open Machine (labels)
open Lexical (definition? definitions)

/-- The code of a function: a fragment behind the label of the function. -/
def FunctionCode (called : Label → Prop) (f : String) (n : Nat) (ls : List Line) (n' : Nat) : Prop :=
  ∃ body, ls = .blank :: .label (.function f) :: body ∧ Fragment [] called [] n body n'

/-- The code of functions, one after the other. -/
inductive FunctionsCode (called : Label → Prop) : List String → Nat → List Line → Nat → Prop
  | nil (n : Nat) : FunctionsCode called [] n [] n
  | cons {f : String} {fs : List String} {n n1 n' : Nat} {ls ls' : List Line} (h : FunctionCode called f n ls n1)
      (hrest : FunctionsCode called fs n1 ls' n') : FunctionsCode called (f :: fs) n (ls ++ ls') n'

/-- The code of a program: a start that calls the main function, and functions. -/
def ProgramCode (called : Label → Prop) (fs : List String) (n : Nat) (ls : List Line) (n' : Nat) : Prop :=
  ∃ start rest n1, ls = start ++ rest ∧ Fragment [] called [] n start n1 ∧
    .instr (.cup 0 (.function "main")) ∈ start ∧ FunctionsCode called fs n1 rest n'

namespace Emit

variable {called : Label → Prop}

abbrev Linked (called : Label → Prop) (n : Node) : Prop := n.Each fun k => Kind.callsIn called k ∧ k.isDefinition = false

/-- Outside of functions there is no loop around. -/
theorem within_outside (above : List Node) : ({ above } : Setting).Within [] :=
  ⟨fun _ h => (by cases h), fun _ h => (by cases h)⟩

theorem makes_function {head : FunctionHead} {ns : List Node} {setting : Setting} (hs : setting.Within [])
    (h : ∀ n ∈ ns, n.kind ≠ .parameters → Linked called n) :
    Writes (FunctionCode called (head.name.getD "None")) (function head (coders ns) setting) := by
  have hbody : Writes (Fragment [] called []) (runAll setting ((coders ns).filter fun c => c.node.kind != .parameters)) := by
    refine kept_fragment.runAll fun c hc => ?_
    obtain ⟨hmem, hkind⟩ := List.mem_filter.1 hc
    rw [coders_eq] at hmem
    obtain ⟨n, hn, rfl⟩ := List.mem_map.1 hmem
    rw [node_coder] at hkind
    exact makes_run (sound_coder n (h n hn (by simpa using hkind))) hs List.mem_cons_self
  have hrest : Writes (Fragment [] called []) (do
      reserve
      runAll setting ((coders ns).filter fun c => c.node.kind != .parameters)
      if head.spec.base = .void ∧ head.layers.isEmpty then instr .retp else instr .retf
      onTable SymbolTable.closeScope) :=
    makes_seq (writes_reserve admitsLoops_fragment) fun _ => makes_seq hbody fun _ =>
      .ite (fun _ => makes_seq (admits_fragment.one trivial) fun _ => (silent_onTable _).writes kept_fragment.nil) fun _ =>
        makes_seq (admits_fragment.one trivial) fun _ => (silent_onTable _).writes kept_fragment.nil
  refine .silent (silent_onTable _) fun _ => ?_
  have hplace : Writes (fun n ls n' => ∃ body, ls = .label (.function (head.name.getD "None")) :: body ∧
      Fragment [] called [] n body n') _ := .bind
    (writes_line (F := fun n ls n' => ls = [.label (.function (head.name.getD "None"))] ∧ n' = n) fun n => ⟨rfl, rfl⟩)
    (fun _ => hrest) (by rintro n _ n1 ls' n' ⟨rfl, rfl⟩ h; exact ⟨ls', rfl, h⟩)
  refine .bind (writes_line (F := fun n ls n' => ls = [.blank] ∧ n' = n) fun n => ⟨rfl, rfl⟩) (fun _ => hplace) ?_
  rintro n _ n1 _ n' ⟨rfl, rfl⟩ ⟨body, rfl, h⟩
  exact ⟨body, rfl, h⟩

/-- What is needed of an item of a program: its code calls only what may be called. -/
abbrev ItemLinked (called : Label → Prop) (n : Node) : Prop :=
  n.ItemEach fun k => Kind.callsIn called k ∧ k.isDefinition = false

theorem makes_functions {p : Node} {ns : List Node} (h : ∀ n ∈ ns, ItemLinked called n)
    (hnamed : ∀ n ∈ ns, n.kind.isDefinition = true → (definition? n).isSome = true) :
    Writes (FunctionsCode called (definitions ns)) (do
      for f in ns do
        if f.kind.isDefinition then (coder f).run { above := [p] }) := by
  have hloop : Writes (FunctionsCode called (definitions ns)) (forIn ns PUnit.unit fun f _ => do
      if f.kind.isDefinition then (coder f).run { above := [p] }
      pure (.yield PUnit.unit)) := by
    induction ns with
    | nil => exact (silent_pure _).writes .nil
    | cons f ns ih =>
      have hrest := ih (fun n hn => h n (List.mem_cons_of_mem f hn)) fun n hn => hnamed n (List.mem_cons_of_mem f hn)
      rw [List.forIn_cons]
      cases hdefinition : f.kind.isDefinition with
      | false =>
        have hnone : definition? f = none := by
          obtain ⟨id, kind, o, cs⟩ := f
          cases kind with
          | function head =>
            have hform : head.form.isDefinition = false := hdefinition
            simp [definition?, Node.kind, hform]
          | _ => rfl
        rw [definitions, List.filterMap_cons, hnone]
        simp only [Bool.false_eq_true, if_false, pure_bind]
        exact hrest
      | true =>
        obtain ⟨id, kind, o, cs⟩ := f
        cases kind with
        | function head =>
          have hform : head.form.isDefinition = true := hdefinition
          obtain ⟨x, hx⟩ := Option.isSome_iff_exists.1 (hnamed _ List.mem_cons_self hdefinition)
          have hname : head.name = some x := by simpa [definition?, Node.kind, hform] using hx
          have hfunction : Writes (FunctionCode called x) ((coder (.mk id (.function head) o cs)).run { above := [p] }) := by
            change Writes _ (codeOf (.mk id (.function head) o cs) (coders cs) { above := [p] })
            dsimp only [codeOf, Node.kind]
            rw [if_pos hform, show x = head.name.getD "None" by rw [hname]; rfl]
            exact makes_function (within_outside _) ((h _ List.mem_cons_self).1 hdefinition)
          rw [definitions, List.filterMap_cons, hx]
          simp only [if_true, bind_assoc, pure_bind]
          exact .bind hfunction (fun _ => hrest) fun _ _ _ _ _ h h' => .cons h h'
        | _ => cases hdefinition
  refine .bind hloop (fun _ => (silent_pure _).writes (F := fun n ls n' => ls = [] ∧ n' = n) fun n => ⟨rfl, rfl⟩) ?_
  rintro n ls n1 _ _ h ⟨rfl, rfl⟩
  rw [List.append_nil]
  exact h

theorem makes_storeLiteral (codes : List Nat) (address : Int) : Writes (Fragment [] called []) (storeLiteral codes address) := by
  have hload : ∀ (offset : Int) (k : Constant), Loadable .char k → ∀ i ∈ [.lda (some 0) offset, .ldc .char k, .sto .char], Emittable i := by
    intro offset k hk i hi
    simp only [List.mem_cons, List.not_mem_nil, or_false] at hi
    obtain rfl | rfl | rfl := hi
    · trivial
    · exact hk
    · rfl
  refine makes_seq (kept_fragment.forIn ?_) fun _ => .ite (fun _ => admits_fragment.instrs (hload _ _ (.number (.inr (.inr rfl)) 27)))
    fun _ => kept_fragment.pure _
  rintro ⟨c, i⟩ _
  exact makes_seq (admits_fragment.instrs (hload _ _ (.char c))) fun _ => kept_fragment.pure _

theorem makes_program {p : Node} (h : ∀ n ∈ p.children, ItemLinked called n) (hmain : called (.function "main"))
    (hnamed : ∀ n ∈ p.children, n.kind.isDefinition = true → (definition? n).isSome = true) :
    Writes (ProgramCode called (definitions p.children)) (program p) := by
  have hglobal : ∀ g ∈ globals p, Writes (Fragment [] called []) (g.1.run { above := g.2 }) := by
    intro g hg
    obtain ⟨declaration, hdeclaration, hg⟩ := List.mem_flatMap.1 hg
    obtain ⟨id, kind, o, cs⟩ := declaration
    cases kind with
    | variableDeclaration spec =>
      obtain ⟨d, hd, rfl⟩ := List.mem_map.1 hg
      obtain ⟨hmem, -⟩ := List.mem_filter.1 hd
      exact makes_run (sound_coder d ((h _ hdeclaration).2 rfl d hmem)) (within_outside _) List.mem_cons_self
    | _ => cases hg
  have hcall : Writes (fun n ls n' => Fragment [] called [] n ls n' ∧ .instr (.cup 0 (.function "main")) ∈ ls)
      (instrs [.mst 0, .cup 0 (.function "main"), .hlt]) := by
    change Writes _ (lines [.instr (.mst 0), .instr (.cup 0 (.function "main")), .instr .hlt])
    refine writes_lines fun n => ⟨?_, by simp⟩
    refine ⟨Nat.le_refl n, ⟨[], .refl _, made_nil n n⟩, by simp [targets, Instr.target?], ?_⟩
    simpa [callees, Instr.callee?] using hmain
  have hstart : ∀ {m : EmitM Unit} {f : Unit → EmitM Unit}, Writes (Fragment [] called []) m →
      Writes (ProgramCode called (definitions p.children)) (f ()) →
        Writes (ProgramCode called (definitions p.children)) (m >>= f) := by
    intro m f hm hf
    refine .bind hm (fun _ => hf) ?_
    rintro n ls n1 _ n' hls ⟨start, rest, n2, rfl, hstart, hcup, hrest⟩
    exact ⟨ls ++ start, rest, n2, by rw [List.append_assoc], hls.append hstart, List.mem_append_right ls hcup, hrest⟩
  refine hstart (admits_fragment.instrs ?_) (hstart (writes_reserve admitsLoops_fragment) (.get fun s => hstart (kept_fragment.forIn ?_)
    (hstart (kept_fragment.forIn ?_) (.bind hcall (fun _ => makes_functions h hnamed) ?_))))
  · simpa [Emittable] using Loadable.number (.inl rfl) 0
  · rintro ⟨codes, v⟩ _
    exact .silent (silent_offsetOf _) fun address => makes_seq (makes_storeLiteral codes address) fun _ => kept_fragment.pure _
  · rintro ⟨c, above⟩ hg
    exact makes_seq (hglobal _ hg) fun _ => kept_fragment.pure _
  · rintro n ls n1 ls' n' ⟨hls, hcup⟩ hls'
    exact ⟨ls, ls', n1, rfl, hls, hcup, hls'⟩

end Emit

/-! ## Names of labels -/

def LabelUse.all : List LabelUse :=
  [elseBranch, afterIf, forIteration, forCondition, forAfter, whileCondition, whileAfter, doWhileCondition, doWhileAfter,
    digitLoop, afterDigitLoop, padLoop, afterPadLoop, noPadding, countLoop, afterCountLoop, paddingLoop, afterPaddingLoop,
    outLoop, afterOutLoop, scanLoop, scanDone]

theorem LabelUse.word_injective {u u' : LabelUse} (h : u.word = u'.word) : u = u' := by
  have hmem : ∀ u : LabelUse, u ∈ all := fun u => by cases u <;> decide
  have hall : ∀ u ∈ all, ∀ u' ∈ all, u.word = u'.word → u = u' := by decide +kernel
  exact hall u (hmem u) u' (hmem u') h

/-- The digits of a number end where another character stands. -/
theorem takeWhile_isDigit (n : Nat) (cs : List Char) :
    (Nat.toDigits 10 n ++ '_' :: cs).takeWhile Char.isDigit = Nat.toDigits 10 n := by
  rw [List.takeWhile_append_of_pos fun c hc => Nat.isDigit_of_mem_toDigits (by decide) (by decide) hc,
    List.takeWhile_cons_of_neg (by decide), List.append_nil]

/-- Labels are told apart by their texts. -/
theorem Label.render_injective {l l' : Label} (h : l.render = l'.render) : l = l' := by
  have hlist := congrArg String.toList h
  cases l with
  | function f =>
    cases l' with
    | function f' =>
      simp only [render, String.toList_append, List.append_cancel_left_eq, String.toList_inj] at hlist
      rw [hlist]
    | numbered n use => simp [render] at hlist
  | numbered n use =>
    cases l' with
    | function f => simp [render] at hlist
    | numbered n' use' =>
      simp only [render, String.toList_append, Nat.toString_eq_ofList_toDigits, String.toList_ofList, List.append_assoc,
        List.append_cancel_left_eq] at hlist
      change Nat.toDigits 10 n ++ '_' :: use.word.toList = Nat.toDigits 10 n' ++ '_' :: use'.word.toList at hlist
      have hdigits : Nat.toDigits 10 n = Nat.toDigits 10 n' := by
        rw [← takeWhile_isDigit n use.word.toList, hlist, takeWhile_isDigit]
      have hn : n = n' := by
        rw [← Nat.ofDigitChars_ten_toDigits (n := n), hdigits, Nat.ofDigitChars_ten_toDigits]
      rw [hdigits, List.append_cancel_left_eq, List.cons.injEq] at hlist
      rw [hn, LabelUse.word_injective (String.toList_inj.1 hlist.2)]

/-! ## Functions of code -/

def Label.function? : Label → Option String
  | .function f => some f
  | .numbered .. => none

/-- The function that a place in code belongs to: the one whose label comes last before the place. -/
def owner (code : List Line) (i : Nat) : Option String := ((labels (code.take i)).filterMap Label.function?).getLast?

/-- Labels are used as they should be: each stands in one place, jumps stay inside their functions, and the functions
that are called are there. -/
structure LabelIntegrity (code : List Line) : Prop where
  once : ((labels code).map Label.render).Nodup
  jumps : ∀ i l, code[i]? = some (.instr (.ujp l)) ∨ code[i]? = some (.instr (.fjp l)) →
    ∃ j, code[j]? = some (.label l) ∧ owner code j = owner code i
  calls : ∀ k l, .instr (.cup k l) ∈ code → (∃ f, l = .function f) ∧ .label l ∈ code
  main : .instr (.cup 0 (.function "main")) ∈ code ∧ .label (.function "main") ∈ code

section

variable {called : Label → Prop} {fs : List String} {n n' : Nat} {ls body before after : List Line} {i : Nat} {l : Label}

theorem mem_labels : l ∈ labels ls ↔ .label l ∈ ls := by
  induction ls with
  | nil => simp
  | cons line ls ih => cases line <;> simp [ih]

theorem mem_instrs {x : Instr} : x ∈ Machine.instrs ls ↔ .instr x ∈ ls := by
  induction ls with
  | nil => simp
  | cons line ls ih => cases line <;> simp [ih]

/-- Inside of lines without labels of functions the function is the same. -/
theorem owner_inside (h : ∀ l ∈ labels body, l.function? = none) (hi : i ≤ body.length) :
    owner (before ++ (body ++ after)) (before.length + i) = ((labels before).filterMap Label.function?).getLast? := by
  have hnone : (labels (body.take i)).filterMap Label.function? = [] :=
    List.filterMap_eq_nil_iff.2 fun l hl => h l (mem_labels.2 (List.mem_of_mem_take (mem_labels.1 hl)))
  rw [owner, List.take_length_add_append, List.take_append_of_le_length hi, Machine.labels_append, List.filterMap_append, hnone,
    List.append_nil]

/-- A jump in a fragment stays in the fragment, and in the function. -/
theorem Fragment.jump (h : Fragment [] called [] n body n') {x : Instr} (hx : body[i]? = some (.instr x))
    (htarget : x.target? = some l) : ∃ j, body[j]? = some (.label l) ∧ ∀ before after,
      owner (before ++ (body ++ after)) (before.length + j) = owner (before ++ (body ++ after)) (before.length + i) := by
  have hmem : l ∈ targets body := List.mem_filterMap.2 ⟨x, mem_instrs.2 (List.mem_of_getElem? hx), htarget⟩
  have hlabel : l ∈ labels body := by simpa using h.jumps l hmem
  obtain ⟨j, hj⟩ := List.mem_iff_getElem?.1 (mem_labels.1 hlabel)
  have hnone : ∀ l ∈ labels body, l.function? = none := by
    intro l hl
    obtain ⟨own, hperm, hown⟩ := h.owns
    obtain ⟨k, use, rfl, -⟩ := hown.range l (by simpa using hperm.mem_iff.1 hl)
    rfl
  have hjlt : j < body.length := (List.getElem?_eq_some_iff.1 hj).1
  have hilt : i < body.length := (List.getElem?_eq_some_iff.1 hx).1
  refine ⟨j, hj, fun before after => ?_⟩
  rw [owner_inside hnone (Nat.le_of_lt hjlt), owner_inside hnone (Nat.le_of_lt hilt)]

theorem FunctionsCode.jump (h : FunctionsCode called fs n ls n') (before : List Line) {x : Instr}
    (hx : ls[i]? = some (.instr x)) (htarget : x.target? = some l) :
    ∃ j, ls[j]? = some (.label l) ∧ owner (before ++ ls) (before.length + j) = owner (before ++ ls) (before.length + i) := by
  induction h generalizing before i with
  | nil => simp at hx
  | @cons f fs n n1 n' ls ls' hfunction _ ih =>
    obtain ⟨body, rfl, hbody⟩ := hfunction
    match i with
    | 0 => simp at hx
    | 1 => simp at hx
    | i + 2 =>
      simp only [List.cons_append, List.getElem?_cons_succ] at hx
      have hshift : ∀ k, before.length + (k + 2) = (before ++ [Line.blank, .label (.function f)]).length + k := fun k => by
        simp
        omega
      have hcode : before ++ (.blank :: .label (.function f) :: body ++ ls') =
          (before ++ [.blank, .label (.function f)]) ++ (body ++ ls') := by simp
      by_cases hlt : i < body.length
      · rw [List.getElem?_append_left hlt] at hx
        obtain ⟨j, hj, howner⟩ := hbody.jump hx htarget
        have hjlt : j < body.length := (List.getElem?_eq_some_iff.1 hj).1
        refine ⟨j + 2, by simpa [List.getElem?_append_left hjlt] using hj, ?_⟩
        rw [hcode, hshift, hshift]
        exact howner _ _
      · rw [List.getElem?_append_right (by omega)] at hx
        obtain ⟨j, hj, howner⟩ := ih (before ++ [.blank, .label (.function f)] ++ body) hx
        refine ⟨body.length + j + 2, ?_, ?_⟩
        · simpa [List.getElem?_append_right] using hj
        · have hassoc : before ++ [.blank, .label (.function f)] ++ body ++ ls' =
              before ++ (.blank :: .label (.function f) :: body ++ ls') := by simp
          have hplace : ∀ k, (before ++ [Line.blank, .label (.function f)] ++ body).length + k =
              before.length + (body.length + k + 2) :=
            fun k => by simp; omega
          rw [hassoc, hplace, hplace] at howner
          rw [howner]
          congr 1
          omega

theorem FunctionsCode.owns (h : FunctionsCode called fs n ls n') :
    n ≤ n' ∧ ∃ own, (labels ls).Perm (fs.map .function ++ own) ∧ Made n n' own := by
  induction h with
  | nil n => exact ⟨Nat.le_refl n, [], .refl _, made_nil n n⟩
  | @cons f fs n n1 n' ls ls' hfunction _ ih =>
    obtain ⟨body, rfl, hbody⟩ := hfunction
    obtain ⟨hle, own', hperm', hown'⟩ := ih
    obtain ⟨own, hperm, hown⟩ := hbody.owns
    refine ⟨Nat.le_trans hbody.le hle, own ++ own', ?_, hown.append hown' hbody.le hle⟩
    have hswap : (own ++ (fs.map Label.function ++ own')).Perm (fs.map Label.function ++ (own ++ own')) := by
      rw [← List.append_assoc, ← List.append_assoc]
      exact List.perm_append_comm.append_right own'
    simpa using ((hperm.append hperm').trans hswap)

theorem FunctionsCode.calls (h : FunctionsCode called fs n ls n') : ∀ l ∈ callees ls, called l := by
  induction h with
  | nil => simp
  | cons hfunction _ ih =>
    obtain ⟨body, rfl, hbody⟩ := hfunction
    intro l hl
    simp only [List.cons_append, callees_blank, callees_label, callees_append, List.mem_append] at hl
    obtain hl | hl := hl
    · exact hbody.calls l hl
    · exact ih l hl

end

/-- In the code of a program in which no two functions have one name every label stands once. -/
theorem ProgramCode.nodup {called : Label → Prop} {fs : List String} {n n' : Nat} {code : List Line}
    (h : ProgramCode called fs n code n') (hfs : fs.Nodup) : (labels code).Nodup := by
  obtain ⟨start, rest, n1, rfl, hstart, -, hrest⟩ := h
  obtain ⟨own, hperm, hown⟩ := hstart.owns
  obtain ⟨hle, own', hperm', hown'⟩ := hrest.owns
  have hmade := hown.append hown' hstart.le hle
  have hall : (labels (start ++ rest)).Perm (fs.map .function ++ (own ++ own')) := by
    rw [Machine.labels_append]
    refine (hperm.append hperm').trans ?_
    rw [List.nil_append, ← List.append_assoc, ← List.append_assoc]
    exact List.perm_append_comm.append_right own'
  refine hall.nodup_iff.2 (List.nodup_append.2 ⟨?_, hmade.nodup, ?_⟩)
  · exact List.Pairwise.map _ (fun a b hab heq => hab (Label.function.inj heq)) hfs
  · rintro l hl _ hl' rfl
    obtain ⟨f, -, rfl⟩ := List.mem_map.1 hl
    obtain ⟨k, use, heq, -⟩ := hmade.range _ hl'
    cases heq

/-- The code of a program in which no two functions have one name, and in which the functions are there that may be
called. -/
theorem ProgramCode.integrity {called : Label → Prop} {fs : List String} {n n' : Nat} {code : List Line}
    (h : ProgramCode called fs n code n') (hfs : fs.Nodup) (hcalled : ∀ l, called l → ∃ f ∈ fs, l = .function f) :
    LabelIntegrity code := by
  have hnodup := h.nodup hfs
  obtain ⟨start, rest, n1, rfl, hstart, hcup, hrest⟩ := h
  have hmain := List.mem_append_left rest hcup
  obtain ⟨own, hperm, hown⟩ := hstart.owns
  obtain ⟨hle, own', hperm', hown'⟩ := hrest.owns
  have hlabel : ∀ f ∈ fs, .label (.function f) ∈ start ++ rest := fun f hf => by
    refine List.mem_append_right start (mem_labels.1 (hperm'.mem_iff.2 (List.mem_append_left _ ?_)))
    exact List.mem_map_of_mem hf
  have hcalls : ∀ k l, .instr (.cup k l) ∈ start ++ rest → (∃ f, l = .function f) ∧ .label l ∈ start ++ rest := by
    intro k l hmem
    have hcallee : l ∈ callees (start ++ rest) := List.mem_filterMap.2 ⟨.cup k l, mem_instrs.2 hmem, rfl⟩
    have hl : called l := by
      rw [callees_append] at hcallee
      obtain hl | hl := List.mem_append.1 hcallee
      · exact hstart.calls l hl
      · exact hrest.calls l hl
    obtain ⟨f, hf, rfl⟩ := hcalled l hl
    exact ⟨⟨f, rfl⟩, hlabel f hf⟩
  refine ⟨?_, ?_, hcalls, hmain, (hcalls _ _ hmain).2⟩
  · exact List.Pairwise.map _ (fun a b hab heq => hab (Label.render_injective heq)) hnodup
  · intro i l hjump
    obtain ⟨x, hx, htarget⟩ : ∃ x, (start ++ rest)[i]? = some (.instr x) ∧ x.target? = some l := by
      obtain hx | hx := hjump
      · exact ⟨_, hx, rfl⟩
      · exact ⟨_, hx, rfl⟩
    by_cases hlt : i < start.length
    · rw [List.getElem?_append_left hlt] at hx
      obtain ⟨j, hj, howner⟩ := hstart.jump hx htarget
      have hjlt : j < start.length := (List.getElem?_eq_some_iff.1 hj).1
      exact ⟨j, by rwa [List.getElem?_append_left hjlt], by simpa using howner [] rest⟩
    · rw [List.getElem?_append_right (by omega)] at hx
      obtain ⟨j, hj, howner⟩ := hrest.jump start hx htarget
      refine ⟨start.length + j, by simpa [List.getElem?_append_right] using hj, ?_⟩
      rw [howner]
      congr 1
      omega

/-! ## Compiled programs -/

theorem runs_of_generate {n : Node} {t : SymbolTable} (h : (generate n t).1 = none) :
    ∃ s, Runs (Emit.program n) { table := t } () s ∧ (generate n t).2.1 = s.code.toList := by
  unfold generate at h ⊢
  rcases hrun : (Emit.program n).run.run { table := t } with ⟨_ | u, s⟩
  · simp [hrun] at h
  · exact ⟨s, hrun, rfl⟩

/-- The code of a program that is compiled to the end without errors: every label is there once, jumps stay inside of
functions, and what is called is there, the main function among it. -/
theorem labelIntegrity_of_compileNode {n : Node} {c : Compilation} {messages : Array String} (hn : n.IsProgram)
    (h : compileNode n { stage := .done, messages } = .ok c) (he : Diagnostic.errorCount c.found = 0)
    (hfault : c.fault = none) : ∃ code, c.code = some code ∧ LabelIntegrity code := by
  obtain ⟨n1, n2, n3, n', s1, s2, s', haccepted, hcode, hgenerate⟩ := accepted_of_compileNode h he
  obtain ⟨s, hruns, hlines⟩ := runs_of_generate (hgenerate.symm.trans hfault)
  obtain ⟨hnodup, hmain, hdefinitions, hnamed, hitems⟩ := haccepted.known hn
  have hlinked : ∀ m ∈ n'.children, Emit.ItemLinked (fun l => ∃ f ∈ definitions n.children, l = .function f) m := by
    refine fun m hm => (hitems m hm).mono fun k ⟨hknown, hdefinition⟩ => ⟨?_, hdefinition⟩
    cases k with
    | call called callee pieces =>
      cases callee with
      | none => trivial
      | some f => exact fun hlibrary => ⟨f.name, hknown f rfl hlibrary, rfl⟩
    | _ => trivial
  obtain ⟨ls, hls, hprogram⟩ := Emit.makes_program hlinked ⟨"main", hmain, rfl⟩ hnamed _ _ _ hruns
  rw [hdefinitions] at hprogram
  refine ⟨s.code.toList, by rw [hcode, hlines], ?_⟩
  rw [hls]
  exact hprogram.integrity hnodup fun l hl => hl

/-- A program in which a loop is left and gone on with, and that calls its own function and one for output. -/
def linkedTree : Node :=
  let int : Specifiers := ⟨.int, true, false⟩
  let name (id : Nat) (x : String) : Node := .mk id (.name x none none) none []
  let statement (id : Nat) (n : Node) : Node := .mk id .statement none [n]
  .mk 0 .program none [
    .mk 1 (.includeFile true "stdio.h") none [],
    .mk 2 (.function ⟨.definition, int, some "f", []⟩) none [
      .mk 3 .parameters none [.mk 4 (.parameter ⟨int, some "x", []⟩) none []],
      .mk 5 .statements none [
        statement 6 (.mk 7 .whileLoop none [
          name 8 "x",
          statement 9 (.mk 10 .ifStmt none [
            name 11 "x",
            statement 12 (.mk 13 .breakStmt none []),
            .mk 14 .elseBranch none [statement 15 (.mk 16 .continueStmt none [])]])]),
        statement 17 (.mk 18 .returnStmt none [name 19 "x"])]],
    .mk 20 (.function ⟨.main, int, some "main", []⟩) none [
      .mk 21 .parameters none [],
      .mk 22 .statements none [
        statement 23 (.mk 24 (.call (some "printf") none none) none [.mk 25 .arguments none [
          .mk 26 (.string "\"%3d\"" [37, 51, 100]) none [],
          .mk 27 (.call (some "f") none none) none [.mk 28 .arguments none [.mk 29 (.integer 2) none []]]]])]]]

theorem labelIntegrity_of_compileNode_linked : ∃ c code, compileNode linkedTree { stage := .done } = .ok c ∧
    Diagnostic.errorCount c.found = 0 ∧ c.fault = none ∧ c.code = some code ∧ LabelIntegrity code := by
  have hresult : (compileNode linkedTree { stage := .done }).toOption.map (fun c => (Diagnostic.errorCount c.found, c.fault)) =
      some (0, none) := by decide +kernel
  have hprogram : linkedTree.IsProgram := ⟨rfl, by decide, by decide⟩
  obtain ⟨c, hc, heq⟩ := Option.map_eq_some_iff.1 hresult
  obtain ⟨he, hfault⟩ := Prod.mk.injEq .. ▸ heq
  have hc := toOption_eq_some.1 hc
  obtain ⟨code, hcode, hintegrity⟩ := labelIntegrity_of_compileNode hprogram hc he hfault
  exact ⟨c, code, hc, he, hfault, hcode, hintegrity⟩

end MiniC
