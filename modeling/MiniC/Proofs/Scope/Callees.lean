import MiniC.Proofs.Pass.Accepted
import MiniC.Proofs.Scope.Filling
import MiniC.Proofs.Scope.Origins

/-!
# The functions that calls stand for

A call is given a function that has a body. Each of these is one of the program's own definitions, or a function for
input or output; so it is for the table that is filled from a program, and for the calls that are resolved by it.
-/

namespace MiniC

variable {id : Nat} {o : Option ParseTree} {cs : List Node} {P : Kind → Prop} {k : Kind}

open SymbolTable
open Lexical (definition? definitions)

/-- A function with a body is one of the program's own or belongs to the library. -/
def Origin.isKnown (fs : List String) : Origin → Prop
  | .function name true false => ∃ x ∈ fs, name = some x
  | _ => True

/-- A call is of one of the program's own functions or of one for input or output. -/
def Kind.isKnown (fs : List String) : Kind → Prop
  | .call _ callee _ => ∀ f ∈ callee, f.isLibrary = false → f.name ∈ fs
  | _ => True

def SymbolTable.Knows (fs : List String) (t : SymbolTable) : Prop := ∀ o ∈ t.origins, o.2.isKnown fs

variable {fs : List String} {t t' : SymbolTable} {s s' : PassState} {os : List (Nat × Origin)} {n n' : Node}
  {above : List Node}

theorem SymbolTable.Knows.gains (h : Knows fs t) (hg : Gains os t t') (hos : ∀ o ∈ os, o.2.isKnown fs) : Knows fs t' := by
  obtain ⟨new, heq, hnew⟩ := hg
  intro o ho
  rw [heq] at ho
  obtain ho | ho := List.mem_append.1 ho
  · exact h o ho
  · exact hos o (hnew.subset ho)

theorem isKnown_library : ∀ o ∈ libraryOrigins, o.2.isKnown fs := by
  intro o ho
  simp only [libraryOrigins, List.mem_cons, List.not_mem_nil, or_false] at ho
  obtain rfl | rfl := ho <;> trivial

theorem SymbolTable.Knows.callee (h : Knows fs t) {v : Nat} {f : FunctionSymbol} (hv : t.symbol v = .function f)
    (hform : f.form.isDefinition = true) : Kind.isKnown fs (.call f.name (some (Resolve.calleeOf f)) none) := by
  have hlt : v < t.symbols.size := by
    by_contra hge
    rw [symbol, Array.getElem?_eq_none (by omega)] at hv
    cases hv
  have hknown := h _ (origin_mem hlt)
  rw [hv] at hknown
  intro g hg hlibrary
  obtain rfl : Resolve.calleeOf f = g := by simpa using hg
  have hlibrary : f.isLibrary = false := hlibrary
  simp only [Symbol.origin, hform, hlibrary] at hknown
  obtain ⟨x, hx, hname⟩ := hknown
  simpa [Resolve.calleeOf, hname] using hx

/-! ## Resolving calls -/

namespace Resolve

/-- What a visit below the heads of functions does: it visits the children, with the same symbols, and gives a call a
function with a body. -/
theorem quiet_inner {kind : Kind} (hf : (Node.mk id kind o cs).formed = true) (hin : kind.isInner = true)
    (h : Quiet (visit above (.mk id kind o cs)) s n' s') :
    ∃ kind' cs' s1 s2, n' = .mk id kind' o cs' ∧ s1.table.origins = s.table.origins ∧
      Quiet (visitAll (.mk id kind o cs :: above) cs) s1 cs' s2 ∧
      ∀ fs, Knows fs s.table → kind'.isKnown fs := by
  by_cases hplain : isPlain kind = true
  · obtain ⟨cs', rfl, hcs⟩ := quiet_visit_plain hplain h
    refine ⟨kind, cs', s, s', rfl, rfl, hcs, fun fs _ => ?_⟩
    cases kind <;> trivial
  · cases kind with
    | name text type symbol =>
      obtain ⟨rfl, -⟩ : cs = [] ∧ Node.formedAll cs = true := by simpa [Node.formed, Kind.admits] using hf
      obtain ⟨w, stage, -, -, rfl, -⟩ := quiet_name h
      have hnil : Quiet (visitAll (.mk id (.name text type symbol) o [] :: above) []) s [] s :=
        ⟨by rw [visitAll]; exact runs_pure.2 ⟨rfl, rfl⟩, h.before, h.before⟩
      exact ⟨_, [], s, s, rfl, rfl, hnil, fun _ _ => trivial⟩
    | call called callee pieces =>
      obtain ⟨w, f, cs', -, hf, hform, rfl, hcs⟩ := quiet_call h
      exact ⟨_, cs', s, s', rfl, rfl, hcs, fun fs hknows => hknows.callee hf hform⟩
    | declarator head =>
      obtain ⟨v, cs', s1, -, rfl, hcs, -⟩ := quiet_declarator h
      exact ⟨_, cs', _, s1, rfl, origins_modifySymbol (origin_setSeen 1) _ _, hcs, fun _ _ => trivial⟩
    | statements =>
      cases hopens : Fill.opensScope above with
      | true =>
        obtain ⟨t, cs', s1, rfl, hopen, hcs, -⟩ := quiet_block hopens h
        exact ⟨_, cs', _, s1, rfl, origins_openScope hopen, hcs, fun _ _ => trivial⟩
      | false =>
        obtain ⟨cs', rfl, hcs⟩ := quiet_body hopens h
        exact ⟨_, cs', s, s', rfl, rfl, hcs, fun _ _ => trivial⟩
    | forLoop a b c =>
      obtain ⟨t, cs', s1, rfl, hopen, hcs, -⟩ := quiet_forLoop h
      exact ⟨_, cs', _, s1, rfl, origins_openScope hopen, hcs, fun _ _ => trivial⟩
    | _ => first | exact (hplain rfl).elim | cases hin

theorem knows_visit (hknows : Knows fs s.table) (hr : Quiet (visit above n) s n' s') : Knows fs s'.table :=
  hknows.gains (adds_visit above n s n' s' hr.runs) fun o ho => isKnown_library o (n.mem_libraries o ho)

mutual

theorem known_visit (n : Node) (hf : n.formed = true) (hin : n.kind.isInner = true) {above : List Node}
    {s s' : PassState} {n' : Node} (hknows : Knows fs s.table) (h : Quiet (visit above n) s n' s') :
    n'.Each (Kind.isKnown fs) := by
  match n with
  | .mk id kind o cs =>
    obtain ⟨kind', cs', s1, s2, rfl, horigins, hcs', hkind⟩ := quiet_inner hf hin h
    obtain ⟨hcs, hinner⟩ := Lexical.formed_children hf hin
    exact ⟨hkind fs hknows, known_visitAll cs hcs hinner (by rw [Knows, horigins]; exact hknows) hcs'⟩

theorem known_visitAll (ns : List Node) (hf : Node.formedAll ns = true) (hin : ∀ n ∈ ns, n.kind.isInner = true)
    {above : List Node} {s s' : PassState} {ns' : List Node} (hknows : Knows fs s.table)
    (h : Quiet (visitAll above ns) s ns' s') : Node.EachAll (Kind.isKnown fs) ns' := by
  match ns with
  | [] =>
    obtain ⟨rfl, -⟩ := quiet_nil h
    trivial
  | n :: ns =>
    obtain ⟨hn, hns⟩ := Bool.and_eq_true_iff.1 hf
    obtain ⟨m, ms, s1, rfl, hm, hms⟩ := visits.quiet_cons h
    exact ⟨known_visit n hn (hin n List.mem_cons_self) hknows hm,
      known_visitAll ns hns (fun m hm => hin m (List.mem_cons_of_mem n hm)) (knows_visit hknows hm) hms⟩

end

end Resolve

/-! ## Items of a program -/

/-- A condition on what code is made from: the bodies of functions, and what stands in declarations. -/
def Node.ItemEach (P : Kind → Prop) (n : Node) : Prop :=
  (n.kind.isDefinition = true → ∀ c ∈ n.children, c.kind ≠ .parameters → c.Each P) ∧
    (n.kind.isVariableDeclaration = true → ∀ c ∈ n.children, c.Each P)

theorem Kind.isVariableDeclaration_bare (k : Kind) : k.bare.isVariableDeclaration = k.isVariableDeclaration := by
  cases k <;> rfl

theorem itemEach_of_bare (h : n.kind.bare = k) (hdefinition : k.isDefinition = false)
    (hdeclaration : k.isVariableDeclaration = false) : n.ItemEach P := by
  subst h
  rw [Kind.isDefinition_bare] at hdefinition
  rw [Kind.isVariableDeclaration_bare] at hdeclaration
  exact ⟨fun h => (by rw [hdefinition] at h; cases h), fun h => (by rw [hdeclaration] at h; cases h)⟩

namespace Resolve

theorem known_item (hf : n.formed = true) (hitem : n.kind.isItem = true) (hknows : Knows fs s.table)
    (h : Quiet (visit above n) s n' s') : n'.ItemEach (Kind.isKnown fs) := by
  have hbare : n'.kind.bare = n.kind.bare := by
    rw [← Node.kind_bare, gives_visit _ _ _ _ _ h.runs, Node.kind_bare]
  obtain ⟨id, kind, o, cs⟩ := n
  cases kind with
  | includeFile std name => exact itemEach_of_bare hbare rfl rfl
  | variableDeclaration spec =>
    obtain ⟨cs', rfl, hcs'⟩ := quiet_visit_plain rfl h
    obtain ⟨hcs, hinner⟩ := Lexical.formed_children hf rfl
    have hknown := known_visitAll cs hcs hinner hknows hcs'
    exact ⟨fun h => (by cases h), fun _ => Node.eachAll_iff.1 hknown⟩
  | function head =>
    cases hform : head.form.isDefinition with
    | false => exact itemEach_of_bare hbare hform rfl
    | true =>
      obtain ⟨t, cs', s1, rfl, hopen, hcs', -⟩ := quiet_function hform h
      obtain ⟨-, ip, op, ps, -, ⟨hnot, -⟩ | ⟨ib, ob, bs, hb, -, rfl⟩⟩ := Lexical.function_children hf
      · rw [hform] at hnot
        cases hnot
      · obtain ⟨m, ms, s2, rfl, hm, hms⟩ := visits.quiet_cons hcs'
        obtain ⟨m', rfl, hm'⟩ := visits.quiet_one hms
        obtain ⟨ps', rfl, -⟩ := quiet_visit_plain rfl hm
        have hknows' : Knows fs t := by rw [Knows, origins_openScope hopen]; exact hknows
        have hbody := known_visit _ hb rfl (knows_visit hknows' hm) hm'
        refine ⟨fun _ c hc hkind => ?_, fun h => by cases h⟩
        obtain rfl | rfl : c = .mk ip .parameters op ps' ∨ c = m' := by simpa [Node.children] using hc
        · exact (hkind rfl).elim
        · exact hbody
  | _ => cases hitem

theorem known_items (ns : List Node) (hf : Node.formedAll ns = true) (hitems : ∀ n ∈ ns, n.kind.isItem = true)
    {ns' : List Node} (hknows : Knows fs s.table) (h : Quiet (visitAll above ns) s ns' s') :
    ∀ m ∈ ns', m.ItemEach (Kind.isKnown fs) := by
  induction ns generalizing s ns' with
  | nil =>
    obtain ⟨rfl, -⟩ := quiet_nil h
    simp
  | cons n ns ih =>
    obtain ⟨hn, hns⟩ := Bool.and_eq_true_iff.1 hf
    obtain ⟨m, ms, s1, rfl, hm, hms⟩ := visits.quiet_cons h
    refine List.forall_mem_cons.2 ⟨known_item hn (hitems n List.mem_cons_self) hknows hm, ?_⟩
    exact ih hns (fun m hm => hitems m (List.mem_cons_of_mem n hm)) (knows_visit hknows hm) hms

end Resolve

/-! ## Programs -/

mutual

/-- Below the heads of functions there are no functions. -/
theorem Node.each_inner (n : Node) (hf : n.formed = true) (hin : n.kind.isInner = true) :
    n.Each fun k => k.isDefinition = false := by
  match n with
  | .mk id kind o cs =>
    obtain ⟨hcs, hinner⟩ := Lexical.formed_children hf hin
    exact ⟨(by cases kind <;> first | rfl | cases hin), eachAll_inner cs hcs hinner⟩

theorem Node.eachAll_inner (ns : List Node) (hf : Node.formedAll ns = true) (hin : ∀ n ∈ ns, n.kind.isInner = true) :
    EachAll (fun k => k.isDefinition = false) ns := by
  match ns with
  | [] => trivial
  | n :: ns =>
    obtain ⟨hn, hns⟩ := Bool.and_eq_true_iff.1 hf
    exact ⟨each_inner n hn (hin n List.mem_cons_self), eachAll_inner ns hns fun m hm => hin m (List.mem_cons_of_mem n hm)⟩

end

theorem Node.each_parameters {ps : List Node} (hf : (Node.mk id .parameters o ps).formed = true) :
    (Node.mk id .parameters o ps).Each fun k => k.isDefinition = false := by
  obtain ⟨hparameters, hps⟩ : (∀ p ∈ ps, p.kind.isParameter = true) ∧ Node.formedAll ps = true := by
    simpa [Node.formed, Kind.admits] using hf
  rw [Node.formedAll_eq, List.all_eq_true] at hps
  refine ⟨rfl, eachAll_iff.2 fun p hp => ?_⟩
  obtain ⟨ip, kind, op, cs⟩ := p
  cases kind with
  | parameter head =>
    obtain ⟨hparts, hcs⟩ : (∀ c ∈ cs, c.kind.isArrayPart = true) ∧ Node.formedAll cs = true := by
      simpa [Node.formed, Kind.admits] using hps _ hp
    exact ⟨rfl, eachAll_inner cs hcs fun c hc => by simp [Kind.isInner, Kind.isInert, Kind.isDeclared, hparts c hc]⟩
  | _ => cases hparameters _ hp

mutual

theorem known_of_each (n : Node) (h : n.Each fun k => k.isDefinition = false) : ∀ x ∈ n.origins, x.2.isKnown fs := by
  match n with
  | .mk id kind o cs =>
    intro x hx
    rw [Node.origins] at hx
    obtain hx | hx := List.mem_append.1 hx
    · obtain ⟨origin, horigin, rfl⟩ : ∃ origin, kind.origin? = some origin ∧ (id, origin) = x := by simpa using hx
      cases kind with
      | function head =>
        have hform : head.form.isDefinition = false := h.1
        simp only [Kind.origin?, hform, Option.some.injEq] at horigin
        subst horigin
        trivial
      | _ => cases horigin <;> trivial
    · exact known_of_eachAll cs h.2 x hx

theorem known_of_eachAll (ns : List Node) (h : Node.EachAll (fun k => k.isDefinition = false) ns) :
    ∀ x ∈ Node.originsAll ns, x.2.isKnown fs := by
  match ns with
  | [] => simp [Node.originsAll]
  | n :: ns =>
    intro x hx
    obtain hx | hx := List.mem_append.1 hx
    · exact known_of_each n h.1 x hx
    · exact known_of_eachAll ns h.2 x hx

end

/-- The functions of an item that have a body are those that it defines. -/
theorem known_of_item (hf : n.formed = true) (hitem : n.kind.isItem = true) (hfs : ∀ x ∈ definition? n, x ∈ fs) :
    ∀ x ∈ n.origins, x.2.isKnown fs := by
  obtain ⟨id, kind, o, cs⟩ := n
  cases kind with
  | includeFile std name =>
    obtain ⟨rfl, -⟩ : cs = [] ∧ Node.formedAll cs = true := by simpa [Node.formed, Kind.admits] using hf
    exact known_of_each _ ⟨rfl, trivial⟩
  | variableDeclaration spec => exact known_of_each _ (Node.each_inner _ hf rfl)
  | function head =>
    obtain ⟨hname, ip, op, ps, hp, hbody⟩ := Lexical.function_children hf
    have hcs : Node.EachAll (fun k => k.isDefinition = false) cs := by
      obtain ⟨-, rfl⟩ | ⟨ib, ob, bs, hb, -, rfl⟩ := hbody
      · exact ⟨Node.each_parameters hp, trivial⟩
      · exact ⟨Node.each_parameters hp, Node.each_inner _ hb rfl, trivial⟩
    intro x hx
    rw [Node.origins] at hx
    obtain hx | hx := List.mem_append.1 hx
    · obtain rfl : (id, Origin.function head.name head.form.isDefinition false) = x := by simpa [Kind.origin?, eq_comm] using hx
      cases hform : head.form.isDefinition with
      | false => trivial
      | true =>
        obtain ⟨f, hf⟩ := Option.isSome_iff_exists.1 hname
        exact ⟨f, hfs f (by simp [definition?, Node.kind, hform, hf]), hf⟩
    · exact known_of_eachAll cs hcs x hx
  | _ => cases hitem

theorem knows_fill (hf : (Node.mk id .program o cs).formed = true) (hs : s.table = {})
    (h : Runs (Fill.run (.mk id .program o cs)) s n' s') : Knows (definitions cs) s'.table := by
  obtain ⟨hitems, hcs⟩ : (∀ c ∈ cs, c.kind.isItem = true) ∧ Node.formedAll cs = true := by
    simpa [Node.formed, Kind.admits] using hf
  rw [Node.formedAll_eq, List.all_eq_true] at hcs
  have hempty : Knows (definitions cs) s.table := by
    rw [hs]
    simp [Knows, SymbolTable.origins]
  refine hempty.gains (Fill.adds_visit [] _ s n' s' h) fun x hx => ?_
  have hx : x ∈ Node.originsAll cs := hx
  have hall : ∀ ns : List Node, (∀ n ∈ ns, n ∈ cs) → ∀ x ∈ Node.originsAll ns, x.2.isKnown (definitions cs) := by
    intro ns
    induction ns with
    | nil => simp [Node.originsAll]
    | cons n ns ih =>
      intro hns x hx
      have hn := hns n List.mem_cons_self
      obtain hx | hx := List.mem_append.1 hx
      · exact known_of_item (hcs n hn) (hitems n hn) (fun f hf => List.mem_filterMap.2 ⟨n, hn, hf⟩) x hx
      · exact ih (fun m hm => hns m (List.mem_cons_of_mem n hm)) x hx
  exact hall cs (fun n hn => hn) x hx

/-- The names of definitions are the same in trees that differ only in what the passes fill in. -/
theorem definitions_congr {ns ns' : List Node} (h : ns'.map (·.kind.bare) = ns.map (·.kind.bare)) :
    definitions ns' = definitions ns := by
  have hkinds : ∀ ms : List Node, definitions ms =
      (ms.map (·.kind.bare)).filterMap fun k => definition? (.mk 0 k none []) := by
    intro ms
    rw [definitions, List.filterMap_map]
    refine List.filterMap_congr fun n _ => ?_
    obtain ⟨id, kind, o, cs⟩ := n
    cases kind <;> rfl
  rw [hkinds, hkinds, h]

/-- The program that is run has a function main. -/
theorem main_mem_definitions {marks : List Nat} (h : Resolve.definesMain marks (.mk id .program o cs) = true) :
    "main" ∈ definitions cs := by
  obtain ⟨f, hf, hmain⟩ := List.any_eq_true.1 h
  refine List.mem_filterMap.2 ⟨f, hf, ?_⟩
  obtain ⟨i, kind, o, ns⟩ := f
  cases kind with
  | function head =>
    obtain ⟨⟨hform, hname⟩, -⟩ : (head.form.isDefinition = true ∧ head.name = some "main") ∧ _ := by
      simpa [Node.kind, Resolve.isMain] using hmain
    simp [definition?, Node.kind, hform, hname]
  | _ => cases hmain

theorem Kind.Refines.isKnown {k' : Kind} (h : k.Refines k') (hk : k.isKnown fs) : k'.isKnown fs := by
  obtain rfl | ⟨called, callee, pieces, pieces', rfl, rfl⟩ := h <;> exact hk

theorem Kind.Refines.isDefinition {k' : Kind} (h : k.Refines k') : k'.isDefinition = k.isDefinition := by
  rw [← Kind.isDefinition_bare, h.bare, Kind.isDefinition_bare]

theorem Follows.itemEach (h : Follows false [n] [n']) (hP : ∀ k k' : Kind, k.Refines k' → P k → P k')
    (hlist : P (.initializerList false)) (hn : n.ItemEach P) : n'.ItemEach P := by
  obtain ⟨id, kind, o, cs⟩ := n
  obtain ⟨kind', cs', rfl, hkind, hcs⟩ := h.one
  have hchild : kind.isInitializerList = false → ∀ c' ∈ cs', ∃ c ∈ cs, c'.kind.bare = c.kind.bare ∧ (c.Each P → c'.Each P) := by
    intro hnot c' hc'
    rw [hnot] at hcs
    obtain ⟨c, hc, hfollows⟩ := hcs.mem hc'
    exact ⟨c, hc, hfollows.kind_bare, fun hP' => (hfollows.each hP hlist ⟨hP', trivial⟩).1⟩
  refine ⟨fun hdefinition c' hc' hparameters => ?_, fun hdeclaration c' hc' => ?_⟩
  · have hdefinition : kind.isDefinition = true := hkind.isDefinition ▸ hdefinition
    obtain ⟨c, hc, hbare, heach⟩ := hchild (by cases kind <;> first | rfl | cases hdefinition) c' hc'
    refine heach (hn.1 hdefinition c hc fun hc => hparameters ?_)
    rw [hc] at hbare
    cases hk : c'.kind <;> simp [hk, Kind.bare] at hbare ⊢
  · have hdeclaration : kind.isVariableDeclaration = true := by
      rw [← Kind.isVariableDeclaration_bare, ← hkind.bare, Kind.isVariableDeclaration_bare]
      exact hdeclaration
    obtain ⟨c, hc, -, heach⟩ := hchild (by cases kind <;> first | rfl | cases hdeclaration) c' hc'
    exact heach (hn.2 hdeclaration c hc)

theorem Node.itemEach_not_definition (hf : n.formed = true) (hitem : n.kind.isItem = true) :
    n.ItemEach fun k => k.isDefinition = false := by
  obtain ⟨id, kind, o, cs⟩ := n
  cases kind with
  | includeFile std name => exact itemEach_of_bare (k := .includeFile std name) rfl rfl rfl
  | variableDeclaration spec => exact ⟨fun h => (by cases h), fun _ => eachAll_iff.1 (each_inner _ hf rfl).2⟩
  | function head =>
    refine ⟨fun _ c hc hparameters => ?_, fun h => (by cases h)⟩
    obtain ⟨-, ip, op, ps, -, ⟨-, rfl⟩ | ⟨ib, ob, bs, hb, -, rfl⟩⟩ := Lexical.function_children hf
    · obtain rfl : c = .mk ip .parameters op ps := by simpa [Node.children] using hc
      exact (hparameters rfl).elim
    · obtain rfl | rfl : c = .mk ip .parameters op ps ∨ c = .mk ib .statements ob bs := by simpa [Node.children] using hc
      · exact (hparameters rfl).elim
      · exact each_inner _ hb rfl
  | _ => cases hitem

theorem Node.ItemEach.and {Q : Kind → Prop} (hP : n.ItemEach P) (hQ : n.ItemEach Q) : n.ItemEach fun k => P k ∧ Q k :=
  ⟨fun h c hc hkind => (hP.1 h c hc hkind).and (hQ.1 h c hc hkind), fun h c hc => (hP.2 h c hc).and (hQ.2 h c hc)⟩

theorem Node.ItemEach.mono {Q : Kind → Prop} (hP : n.ItemEach P) (h : ∀ k, P k → Q k) : n.ItemEach Q :=
  ⟨fun hn c hc hkind => (hP.1 hn c hc hkind).mono h, fun hn c hc => (hP.2 hn c hc).mono h⟩

/-- The functions of a program without errors: they have different names, one is the main function, and calls are of
them or of those for input and output. -/
theorem Accepted.known {n1 n2 n3 : Node} {s1 s2 : PassState} (h : Accepted n n1 n2 n3 n' s1 s2 s') (hn : n.IsProgram) :
    (definitions n.children).Nodup ∧ "main" ∈ definitions n.children ∧ definitions n'.children = definitions n.children ∧
      (∀ c ∈ n'.children, c.kind.isDefinition = true → (definition? c).isSome = true) ∧
      ∀ c ∈ n'.children, c.ItemEach fun k => k.isKnown (definitions n.children) ∧ k.isDefinition = false := by
  obtain ⟨hlike1, hlike2, hlike3⟩ := h.like
  obtain ⟨id, o, cs, rfl⟩ := hn.eq
  obtain ⟨i1, o1, cs1, rfl⟩ := (hn.congr hlike1).eq
  obtain ⟨i2, o2, cs2, rfl⟩ := (hn.congr hlike2).eq
  obtain ⟨cs3, s3, rfl, hcs3, -, hdefines⟩ := Resolve.quiet_program h.resolved
  obtain ⟨kind', cs', rfl, -, hcs'⟩ := (h.follows hn).one
  have hsame : ∀ {i o' ns}, (Node.mk i .program o' ns).bare = (Node.mk id .program o cs).bare →
      definitions ns = definitions cs := fun hlike => by
    injection hlike with _ _ _ hns
    exact definitions_congr (Node.map_kind_bare hns)
  have hitems : ∀ {i o' ns}, (Node.mk i .program o' ns).formed = true →
      Node.formedAll ns = true ∧ ∀ c ∈ ns, c.kind.isItem = true := fun hf => by
    simpa [Node.formed, Kind.admits, and_comm] using hf
  obtain ⟨-, -, -, -, -, -, hnodup, -⟩ := Lexical.fill_program (hn.congr hlike1).formed rfl h.filled
  have hknows : Knows (definitions cs) s1.table := hsame hlike1 ▸ knows_fill (hn.congr hlike1).formed rfl h.filled.runs
  have hdefinitions : definitions cs' = definitions cs := (definitions_congr hcs'.map_kind_bare).trans (hsame hlike3)
  obtain ⟨hf2, hitems2⟩ := hitems (hn.congr hlike2).formed
  obtain ⟨hf3, hitems3⟩ := hitems (hn.congr hlike3).formed
  rw [Node.formedAll_eq, List.all_eq_true] at hf3
  have hknown : ∀ c ∈ cs3, c.ItemEach (Kind.isKnown (definitions cs)) :=
    Resolve.known_items cs2 hf2 hitems2 (by exact hknows) hcs3
  refine ⟨hsame hlike1 ▸ hnodup, hsame hlike2 ▸ main_mem_definitions hdefines, hdefinitions, ?_, ?_⟩
  · intro c' hc' hdefinition
    obtain ⟨c, hc, hfollows⟩ := hcs'.mem hc'
    obtain ⟨i, kind, oc, ns⟩ := c
    obtain ⟨kind', ns', rfl, hkind, -⟩ := hfollows.one
    have hdefinition : kind.isDefinition = true := hkind.isDefinition ▸ hdefinition
    cases kind with
    | function head =>
      obtain rfl : kind' = .function head := by
        obtain rfl | ⟨called, callee, pieces, pieces', heq, -⟩ := hkind
        · rfl
        · cases heq
      have hform : head.form.isDefinition = true := hdefinition
      have hname := (Lexical.function_children (hf3 _ hc)).1
      simpa [definition?, Node.kind, hform] using hname
    | _ => cases hdefinition
  · intro c' hc'
    obtain ⟨c, hc, hfollows⟩ := hcs'.mem hc'
    refine hfollows.itemEach (fun k k' hk h => ⟨hk.isKnown h.1, hk.isDefinition.trans h.2⟩) ⟨trivial, rfl⟩ ?_
    exact (hknown c hc).and (Node.itemEach_not_definition (hf3 c hc) (hitems3 c hc))

end MiniC
