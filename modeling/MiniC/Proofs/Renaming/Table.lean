import Mathlib.Data.Set.Function
import MiniC.Proofs.Pass.Mirror
import MiniC.Proofs.Scope.Library

/-!
# Tables with other names

`Alike r t t'` says that `t'` is the table `t` with the names of variables replaced by the renaming `r`: scopes and symbols
have the same numbers, and functions have the names they had. In one scope no name is entered twice, and no new name of a
variable is that of a function; so a variable that is found in `t` is found in `t'` under its new name, and a function under
its old one. Every operation on tables keeps them alike.
-/

namespace MiniC

variable {x x' : Symbol} {y : String} {f : FunctionSymbol} {s : Nat} {o : ObjectSymbol} {w : Verdict}

/-- A renaming of variables: it takes different names to different names, and none to the name of a function. -/
structure Renaming where
  map : String → String
  /-- The names of variables and parameters. -/
  objects : Set String
  functions : Set String
  injOn : Set.InjOn map objects
  fresh : ∀ x ∈ objects, map x ∉ functions
  /-- The functions for input and output are no variables. -/
  library : ∀ x ∈ ["printf", "scanf"], x ∈ functions ∧ x ∉ objects

namespace Renaming

variable (r : Renaming)

/-- The name of a symbol in the other table. -/
def nameOf : Symbol → Option String → Option String
  | .object _, name => name.map r.map
  | .function _, name => name

def Admits : Symbol → Option String → Prop
  | .object _, name => ∀ x, name = some x → x ∈ r.objects
  | .function _, name => ∀ x, name = some x → x ∈ r.functions

/-- The entry of a scope in the other table. -/
def entry (t : SymbolTable) (e : Option String × Nat) : Option String × Nat := (r.nameOf (t.symbol e.2) e.1, e.2)

variable {r} {x y : Symbol} {a b : Option String}

theorem nameOf_congr (h : x.isObject = y.isObject) : r.nameOf x = r.nameOf y := by
  cases x <;> cases y <;> first | rfl | cases h

theorem admits_congr (h : x.isObject = y.isObject) : r.Admits x = r.Admits y := by
  cases x <;> cases y <;> first | rfl | cases h

/-- Names that are the same afterwards were the same before. -/
theorem eq_of_nameOf (hx : r.Admits x a) (hy : r.Admits y b) (h : r.nameOf x a = r.nameOf y b) : a = b := by
  cases a with
  | none =>
    cases b with
    | none => rfl
    | some b => cases x <;> cases y <;> cases h
  | some a =>
    cases b with
    | none => cases x <;> cases y <;> cases h
    | some b =>
      cases x with
      | object o =>
        have ha : a ∈ r.objects := hx a rfl
        cases y with
        | object o' => exact congrArg some (r.injOn ha (hy b rfl) (Option.some.inj h))
        | function f => exact (r.fresh a ha (Option.some.inj h ▸ hy b rfl)).elim
      | function f =>
        cases y with
        | object o' => exact (r.fresh b (hy b rfl) (Option.some.inj h ▸ hx a rfl)).elim
        | function f' => exact h

/-- Variables and functions do not have the same names afterwards. -/
theorem isObject_of_nameOf (hx : r.Admits x a) (hy : r.Admits y b) (h : r.nameOf x a = r.nameOf y b) (ha : a ≠ none) :
    x.isObject = y.isObject := by
  obtain rfl := eq_of_nameOf hx hy h
  obtain ⟨n, rfl⟩ := Option.ne_none_iff_exists'.1 ha
  cases x with
  | object o =>
    cases y with
    | object o' => rfl
    | function f =>
      have hn : r.map n = n := Option.some.inj h
      exact (r.fresh n (hx n rfl) (by rw [hn]; exact hy n rfl)).elim
  | function f =>
    cases y with
    | object o' =>
      have hn : n = r.map n := Option.some.inj h
      exact (r.fresh n (hy n rfl) (by rw [← hn]; exact hx n rfl)).elim
    | function f' => rfl

end Renaming

/-- The symbol under its other name; it may stand somewhere else. -/
inductive Symbol.Alike (r : Renaming) : Symbol → Symbol → Prop
  | object (o : ObjectSymbol) (place : Position) :
      Alike r (.object o) (.object { o with name := o.name.map r.map, position := place })
  | function (f : FunctionSymbol) (place : Position) : Alike r (.function f) (.function { f with position := place })

namespace Symbol.Alike

variable {r : Renaming} {x x' : Symbol}

theorem name (h : Symbol.Alike r x x') : x'.name = r.nameOf x x.name := by cases h <;> rfl

theorem type (h : Symbol.Alike r x x') : x'.type = x.type := by cases h <;> rfl

theorem address (h : Symbol.Alike r x x') : x'.address = x.address := by cases h <;> rfl

theorem seen (h : Symbol.Alike r x x') : x'.seen = x.seen := by cases h <;> rfl

theorem isVisible (h : Symbol.Alike r x x') (needed : Nat) : x'.isVisible needed = x.isVisible needed := by cases h <;> rfl

theorem setSeen (h : Symbol.Alike r x x') (stage : Nat) : Symbol.Alike r (x.setSeen stage) (x'.setSeen stage) := by
  cases h with
  | object o place => exact .object { o with seen := stage } place
  | function f place => exact .function { f with seen := some stage } place

theorem unseen (h : Symbol.Alike r x x') : Symbol.Alike r x.unseen x'.unseen := by
  cases h with
  | object o place => exact .object { o with seen := 0 } place
  | function f place => exact .function f place

end Symbol.Alike

def Symbol.placed (address : Int) : Symbol → Symbol
  | .object o => .object { o with address := some address }
  | f => f

namespace SymbolTable

theorem named?_eq_some {t : SymbolTable} {i v : Nat} {name : Option String} (h : ((t.entries i).map (·.1)).Nodup) :
    t.named? i name = some v ↔ (name, v) ∈ t.entries i := by
  refine ⟨mem_of_named?, fun hmem => ?_⟩
  cases hnamed : t.named? i name with
  | none => exact (named?_eq_none hnamed _ hmem rfl).elim
  | some w =>
    have heq := List.inj_on_of_nodup_map h hmem (mem_of_named? hnamed) rfl
    exact congrArg some (congrArg Prod.snd heq).symm

theorem mem_of_lookupIn {t : SymbolTable} {s v needed : Nat} {name : Option String} (h : t.lookupIn s name needed = some v) :
    (name, v) ∈ t.entries s ∧ name ≠ none := by
  cases name with
  | none => simp [lookupIn] at h
  | some y =>
    rw [lookupIn_eq] at h
    obtain ⟨w, hw, hif⟩ := Option.bind_eq_some_iff.1 h
    obtain ⟨-, heq⟩ := Option.ite_none_right_eq_some.1 hif
    exact ⟨Option.some.inj heq ▸ mem_of_named? hw, by simp⟩

/-- A name is entered once. -/
theorem nodup_enterName {es : Array (Option String × Nat)} (h : (es.toList.map (·.1)).Nodup) (name : Option String) (v : Nat) :
    ((enterName es name v).toList.map (·.1)).Nodup := by
  unfold enterName
  split
  next i hi =>
    obtain ⟨hlt, hname, -⟩ := Array.findIdx?_eq_some_iff_getElem.1 hi
    have hset : (es.toList.map (·.1)).set i name = es.toList.map (·.1) := by
      have hget : (es.toList.map (·.1))[i]? = some name := by simpa [hlt] using hname
      refine List.ext_getElem? fun j => ?_
      rw [List.getElem?_set]
      split
      next hij => subst hij; rw [if_pos (by simpa using hlt), hget]
      next => rfl
    rw [Array.toList_setIfInBounds, List.map_set, hset]
    exact h
  next hnone =>
    have hnone : ∀ e ∈ es.toList, e.1 ≠ name := by simpa [Array.findIdx?_eq_none_iff] using hnone
    rw [Array.toList_push, List.map_append]
    refine h.append (by simp) fun x hx hx' => ?_
    obtain ⟨e, he, rfl⟩ := List.mem_map.1 hx
    exact hnone e he (by simpa using hx')

theorem findIdx?_congr {α : Type} {p q : α → Bool} {l : List α} (h : ∀ a ∈ l, p a = q a) : l.findIdx? p = l.findIdx? q := by
  induction l with
  | nil => rfl
  | cons a l ih =>
    rw [List.findIdx?_cons, List.findIdx?_cons, h a List.mem_cons_self, ih fun b hb => h b (List.mem_cons_of_mem a hb)]

/-- The same table under other names. -/
structure Alike (r : Renaming) (t t' : SymbolTable) : Prop where
  current : t'.current = t.current
  replaying : t'.replaying = t.replaying
  functionDepth : t'.functionDepth = t.functionDepth
  strings : t'.strings = t.strings
  scopes : t'.scopes.size = t.scopes.size
  scope_eq : ∀ i, t'.scope i = { t.scope i with symbols := (t.scope i).symbols.map (r.entry t) }
  symbols : t'.symbols.size = t.symbols.size
  symbol : ∀ v, (t.symbol v).Alike r (t'.symbol v)
  /-- What is entered in a scope has a name of its sort. -/
  named : ∀ i, ∀ e ∈ t.entries i, e.2 < t.symbols.size ∧ r.Admits (t.symbol e.2) e.1
  /-- No name is entered twice. -/
  nodup : ∀ i, ((t.entries i).map (·.1)).Nodup

namespace Alike

variable {r : Renaming} {t t' : SymbolTable} {s i v : Nat}

theorem empty (r : Renaming) : Alike r {} {} where
  current := rfl
  replaying := rfl
  functionDepth := rfl
  strings := rfl
  scopes := rfl
  scope_eq i := by simp [scope_empty]
  symbols := rfl
  symbol v := by
    rw [symbol_empty]
    exact .object default (0, 0)
  named i e he := by simp [SymbolTable.entries, scope_empty] at he
  nodup i := by simp [SymbolTable.entries, scope_empty]

section

variable (h : Alike r t t')

include h

theorem entries (i : Nat) : t'.entries i = (t.entries i).map (r.entry t) := by
  simp [SymbolTable.entries, h.scope_eq i]

theorem above (i : Nat) : (t'.scope i).above = (t.scope i).above := by rw [h.scope_eq]

theorem chain : t'.chain = t.chain := by simp only [SymbolTable.chain, h.current, h.above]

theorem frameOf (i : Nat) : t'.frameOf i = t.frameOf i := by simp only [SymbolTable.frameOf, h.scope_eq]

theorem cellsOf (i : Nat) : t'.cellsOf i = t.cellsOf i := by simp only [SymbolTable.cellsOf, h.scope_eq, h.frameOf]

theorem levelOf (v : Nat) : t'.levelOf v = t.levelOf v := by
  have hgo : ∀ (chain : List Nat) (level : Int), levelOf.go t' v level chain = levelOf.go t v level chain := by
    intro chain
    induction chain with
    | nil => exact fun _ => rfl
    | cons s rest ih =>
      intro level
      simp only [levelOf.go, h.scope_eq, Array.any_map, Function.comp_def, Renaming.entry, ih]
  rw [SymbolTable.levelOf, SymbolTable.levelOf, h.chain, hgo]

/-! ### Lookups -/

theorem nodup' (i : Nat) : ((t'.entries i).map (·.1)).Nodup := by
  rw [h.entries, List.map_map]
  refine List.Nodup.map_on (fun e he e' he' heq => ?_) (h.nodup i).of_map
  have hname := Renaming.eq_of_nameOf (h.named i e he).2 (h.named i e' he').2 heq
  exact List.inj_on_of_nodup_map (h.nodup i) he he' hname

/-- What has a new name in a scope had the old name, and is of the sort that the name is for. -/
theorem named? (hx : r.Admits x (some y)) (i : Nat) :
    t'.named? i (r.nameOf x (some y)) = (t.named? i (some y)).filter fun v => (t.symbol v).isObject = x.isObject := by
  refine Option.ext fun v => ?_
  rw [named?_eq_some (h.nodup' i), h.entries, Option.filter_eq_some_iff, named?_eq_some (h.nodup i), List.mem_map]
  constructor
  · rintro ⟨⟨name, w⟩, he, heq⟩
    obtain ⟨hname, rfl⟩ := Prod.mk.injEq .. ▸ heq
    have hadmits := (h.named i _ he).2
    obtain rfl : name = some y := Renaming.eq_of_nameOf hadmits hx hname
    exact ⟨he, by simpa using Renaming.isObject_of_nameOf hadmits hx hname (by simp)⟩
  · rintro ⟨he, hobject⟩
    refine ⟨_, he, ?_⟩
    rw [Renaming.entry, Renaming.nameOf_congr (by simpa using hobject)]

theorem lookupIn (hx : r.Admits x (some y)) (i needed : Nat) :
    t'.lookupIn i (r.nameOf x (some y)) needed =
      (t.lookupIn i (some y) needed).filter fun v => (t.symbol v).isObject = x.isObject := by
  obtain ⟨z, hz⟩ : ∃ z, r.nameOf x (some y) = some z := by cases x <;> exact ⟨_, rfl⟩
  rw [hz, lookupIn_eq, lookupIn_eq, ← hz, h.named? hx]
  simp only [(h.symbol _).isVisible]
  cases t.named? i (some y) with
  | none => rfl
  | some v =>
    by_cases hobject : (t.symbol v).isObject = x.isObject <;> cases hvisible : (t.symbol v).isVisible needed <;>
      simp [Option.filter_some, hobject, hvisible]

/-- A symbol that is found by a name is found by its new name. -/
theorem lookup {name : Option String} {needed : Nat} (hv : t.lookup name needed = some v) :
    t'.lookup (r.nameOf (t.symbol v) name) needed = some v := by
  obtain ⟨before, i, after, hchain, hfound, hbefore⟩ := List.findSome?_eq_some_iff.1 hv
  cases name with
  | none => simp [SymbolTable.lookupIn] at hfound
  | some y =>
    have hlookup := h.lookupIn (h.named i _ (mem_of_lookupIn hfound).1).2
    refine List.findSome?_eq_some_iff.2 ⟨before, i, after, h.chain.trans hchain, ?_, fun j hj => ?_⟩
    · rw [hlookup, hfound]
      simp
    · rw [hlookup, hbefore j hj]
      rfl

/-! ### Changes of scopes -/

theorem modifyScope (s : Nat) {g : Scope → Scope} (hg : ∀ scope es, g { scope with symbols := es } = { g scope with symbols := es }) :
    Alike r (t.modifyScope s g) (t'.modifyScope s g) := by
  have hsymbols : ∀ i, ((t.modifyScope s g).scope i).symbols = (t.scope i).symbols := fun i => by
    rw [scope_modifyScope]
    split
    · have heq : g (t.scope i) = { g (t.scope i) with symbols := (t.scope i).symbols } := hg (t.scope i) (t.scope i).symbols
      rw [heq]
    · rfl
  have hentries : ∀ i, (t.modifyScope s g).entries i = t.entries i := fun i => by
    rw [SymbolTable.entries, hsymbols, SymbolTable.entries]
  refine { h with scopes := by simp [h.scopes], scope_eq := fun i => ?_, named := fun i => ?_, nodup := fun i => ?_ }
  · rw [hsymbols, scope_modifyScope, scope_modifyScope, h.scopes, h.scope_eq]
    split
    · exact hg ..
    · rfl
  · rw [hentries]
    exact h.named i
  · rw [hentries]
    exact h.nodup i

/-- Another scope with no names in it. -/
theorem pushScope (scope : Scope) (hscope : scope.symbols = #[]) :
    Alike r { t with scopes := t.scopes.push scope } { t' with scopes := t'.scopes.push scope } := by
  have hpush : ∀ (u : SymbolTable) (i : Nat), ({ u with scopes := u.scopes.push scope } : SymbolTable).scope i =
      if i = u.scopes.size then scope else u.scope i := fun u i => by
    simp only [SymbolTable.scope, Array.getElem?_push]
    split <;> rfl
  have hentries : ∀ i, ({ t with scopes := t.scopes.push scope } : SymbolTable).entries i =
      if i = t.scopes.size then [] else t.entries i := fun i => by
    rw [SymbolTable.entries, hpush]
    split
    · rw [hscope]
    · rfl
  refine { h with scopes := by simp [h.scopes], scope_eq := fun i => ?_, named := fun i => ?_, nodup := fun i => ?_ }
  · rw [hpush, hpush, h.scopes, h.scope_eq]
    split
    · rw [hscope, Array.map_empty, ← hscope]
    · rfl
  · rw [hentries]
    split
    · simp
    · exact h.named i
  · rw [hentries]
    split
    · simp
    · exact h.nodup i

/-- Another scope is open, and something was said. -/
theorem moved (current : Option Nat) (notices notices' : Array String) :
    Alike r { t with current, notices } { t' with current, notices := notices' } := { h with current := rfl }

theorem reset : Alike r t.reset t'.reset :=
  { h.modifyScope 0 (g := fun scope => { scope with next := 0 }) fun _ _ => rfl with current := rfl }

theorem startReplay : Alike r t.startReplay t'.startReplay := by
  have hreplay : Alike r { t with replaying := true } { t' with replaying := true } := { h with replaying := rfl }
  exact hreplay.reset

/-! ### Changes of symbols -/

theorem added (hx : x.Alike r x') : Alike r (t.added x) (t'.added x') := by
  have hsymbol : ∀ v, (t.added x).symbol v = if v = t.symbols.size then x else t.symbol v := symbol_push t x
  have hold : ∀ i, ∀ e ∈ t.entries i, (t.added x).symbol e.2 = t.symbol e.2 := fun i e he => by
    rw [hsymbol, if_neg (Nat.ne_of_lt (h.named i e he).1)]
  refine { h with
    scope_eq := fun i => ?_, symbols := by simp [SymbolTable.added, h.symbols], symbol := fun v => ?_, named := fun i e he => ?_ }
  · have hmap : (t.scope i).symbols.map (r.entry (t.added x)) = (t.scope i).symbols.map (r.entry t) :=
      Array.map_congr_left fun e he => by rw [Renaming.entry, hold i e (Array.mem_toList_iff.2 he), Renaming.entry]
    exact (h.scope_eq i).trans (by rw [← hmap]; rfl)
  · rw [hsymbol, show (t'.added x').symbol v = _ from symbol_push t' x' v, h.symbols]
    split
    · exact hx
    · exact h.symbol v
  · obtain ⟨hlt, hadmits⟩ := h.named i e he
    refine ⟨by simp [SymbolTable.added]; omega, ?_⟩
    rw [hold i e he]
    exact hadmits

/-- A change that goes with other names, and leaves variables variables. -/
theorem modifySymbol (v : Nat) {g : Symbol → Symbol} (hg : ∀ x x', x.Alike r x' → (g x).Alike r (g x'))
    (hobject : ∀ x, (g x).isObject = x.isObject) : Alike r (t.modifySymbol v g) (t'.modifySymbol v g) := by
  have hsame : ∀ w, ((t.modifySymbol v g).symbol w).isObject = (t.symbol w).isObject := fun w => by
    rw [symbol_modifySymbol]
    split
    · exact hobject _
    · rfl
  refine { h with
    scope_eq := fun i => ?_, symbols := by simp [h.symbols], symbol := fun w => ?_, named := fun i e he => ?_ }
  · have hentry : r.entry (t.modifySymbol v g) = r.entry t := funext fun e => by
      rw [Renaming.entry, Renaming.nameOf_congr (hsame e.2), Renaming.entry]
    rw [hentry]
    exact h.scope_eq i
  · rw [symbol_modifySymbol, symbol_modifySymbol, h.symbols]
    split
    · exact hg _ _ (h.symbol w)
    · exact h.symbol w
  · obtain ⟨hlt, hadmits⟩ := h.named i e he
    rw [Renaming.admits_congr (hsame e.2), size_modifySymbol]
    exact ⟨hlt, hadmits⟩

theorem setSeen (v stage : Nat) :
    Alike r (t.modifySymbol v (Symbol.setSeen stage)) (t'.modifySymbol v (Symbol.setSeen stage)) :=
  h.modifySymbol v (fun _ _ hx => hx.setSeen stage) fun x => by cases x <;> rfl

theorem allotted (frame v : Nat) (size : Int) : Alike r (t.allotted frame v size) (t'.allotted frame v size) :=
  (h.modifyScope frame (g := fun scope => { scope with addressed := scope.addressed.push v }) fun _ _ => rfl).modifyScope frame
    (g := fun scope => { scope with cells := scope.cells + size }) fun _ _ => rfl

/-- A name is entered in a scope. Only the name of a function may be known there, as that of a function. -/
theorem entered (s : Nat) {name : Option String} (hv : v < t.symbols.size) (hadmits : r.Admits (t.symbol v) name)
    (hclash : ∀ e ∈ t.entries s, e.1 = name → name = none ∨ (t.symbol v).isObject = false ∧ (t.symbol e.2).isObject = false) :
    Alike r (t.named s name v) (t'.named s (r.nameOf (t.symbol v) name) v) := by
  have hscope : ∀ (u : SymbolTable) (name : Option String) (i : Nat), (u.named s name v).scope i =
      if i = s ∧ s < u.scopes.size then { u.scope i with symbols := enterName (u.scope i).symbols name v } else u.scope i :=
    fun u name i => scope_modifyScope u s _ i
  have hagree : ∀ e ∈ t.entries s, ((r.entry t e).1 == r.nameOf (t.symbol v) name) = (e.1 == name) := by
    intro e he
    rw [Bool.eq_iff_iff, beq_iff_eq, beq_iff_eq]
    refine ⟨Renaming.eq_of_nameOf (h.named s e he).2 hadmits, fun heq => ?_⟩
    obtain hnone | ⟨hfunction, hfunction'⟩ := hclash e he heq
    · rw [Renaming.entry, heq, hnone]
      cases t.symbol v <;> cases t.symbol e.2 <;> rfl
    · rw [Renaming.entry, heq, Renaming.nameOf_congr (hfunction'.trans hfunction.symm)]
  have henter : enterName ((t.scope s).symbols.map (r.entry t)) (r.nameOf (t.symbol v) name) v =
      (enterName (t.scope s).symbols name v).map (r.entry t) := by
    have hfind : (t.scope s).symbols.findIdx? ((fun e => e.1 == r.nameOf (t.symbol v) name) ∘ r.entry t) =
        (t.scope s).symbols.findIdx? fun e => e.1 == name := by
      have hlist := findIdx?_congr hagree
      exact (List.findIdx?_toArray _ _).trans (hlist.trans (List.findIdx?_toArray _ _).symm)
    rw [enterName, enterName, Array.findIdx?_map, hfind]
    split
    · rw [Array.map_setIfInBounds]; rfl
    · rw [Array.map_push]; rfl
  have hentries : ∀ i, (t.named s name v).entries i =
      if i = s ∧ s < t.scopes.size then (enterName (t.scope i).symbols name v).toList else t.entries i := fun i => by
    rw [SymbolTable.entries, hscope]
    split <;> rfl
  refine { h with
    scopes := by simp [SymbolTable.named, h.scopes], scope_eq := fun i => ?_, named := fun i e he => ?_, nodup := fun i => ?_ }
  · rw [hscope, hscope, h.scopes, h.scope_eq]
    split
    next hi => rw [hi.1, henter]; rfl
    next => rfl
  · rw [hentries] at he
    split at he
    · obtain he | rfl := mem_enterName he
      · exact h.named i e he
      · exact ⟨hv, hadmits⟩
    · exact h.named i e he
  · rw [hentries]
    split
    · exact nodup_enterName (h.nodup i) name v
    · exact h.nodup i

theorem forgetSeen (s : Nat) : Alike r (t.forgetSeen s) (t'.forgetSeen s) := by
  have hfold : ∀ (es : List (Option String × Nat)) (T u u' : SymbolTable), Alike r u u' →
      Alike r (es.foldl (fun u e => u.modifySymbol e.2 Symbol.unseen) u)
        ((es.map (r.entry T)).foldl (fun u e => u.modifySymbol e.2 Symbol.unseen) u') := by
    intro es T
    induction es with
    | nil => exact fun _ _ hu => hu
    | cons e es ih =>
      intro u u' hu
      exact ih _ _ (hu.modifySymbol e.2 (fun _ _ hx => hx.unseen) fun x => by cases x <;> rfl)
  rw [forgetSeen_eq, forgetSeen_eq, h.entries]
  exact hfold _ t t t' h

end

end Alike

/-! ## Operations -/

section

variable {r : Renaming} {t t' u : SymbolTable} {v : Nat}

theorem mirrors_currentScope : Mirrors (Alike r) Eq currentScope currentScope := by
  refine .bind .get fun t t' h => ?_
  rw [h.current]
  split
  · exact .pure rfl
  · exact .throw _

theorem mirrors_makeScope (isFunction : Bool) (name : Option String) :
    Mirrors (Alike r) Eq (makeScope isFunction name) (makeScope isFunction name) := by
  refine .andThen mirrors_currentScope fun s => .modify fun t t' h => ?_
  have hparent := h.modifyScope s (g := fun scope => { scope with children := scope.children.push t.scopes.size }) fun _ _ => rfl
  have hpush := hparent.pushScope { name, isFunction, above := s :: (t.scope s).above } rfl
  rw [h.scopes, h.above s]
  exact { hpush with current := rfl }

theorem mirrors_replayScope (name : Option String) : Mirrors (Alike r) Eq (replayScope name) (replayScope name) := by
  refine .andThen mirrors_currentScope fun s => .bind .get fun t t' h => ?_
  simp only [h.scope_eq]
  split
  · exact .throw _
  next child hchild =>
    have hnext := h.modifyScope s (g := fun scope => { scope with next := scope.next + 1 }) fun _ _ => rfl
    have hchild := hnext.modifyScope child (g := fun scope => { scope with next := 0 }) fun _ _ => rfl
    exact .set ((hchild.forgetSeen child).moved ..)

theorem mirrors_openScope (isFunction : Bool) (name : Option String) :
    Mirrors (Alike r) Eq (openScope isFunction name) (openScope isFunction name) := by
  refine .andThen (.modify fun t t' h => { h with }) fun _ => .when .rfl (fun _ => .modify fun t t' h => ?_) fun _ =>
    .bind .get fun t t' h => .ite (by rw [h.replaying]) (fun _ => mirrors_replayScope name) fun _ =>
      mirrors_makeScope isFunction name
  exact { h with functionDepth := congrArg (· + 1) h.functionDepth }

theorem mirrors_closeScope : Mirrors (Alike r) Eq closeScope closeScope := by
  refine .andThen (.modify fun t t' h => { h with }) fun _ => .andThen mirrors_currentScope fun s => .modify fun t t' h => ?_
  exact { h with
    current := congrArg List.head? (h.above s), functionDepth := by simp only [h.scope_eq, h.functionDepth] }

theorem mirrors_addSymbol (hx : x.Alike r x') : Mirrors (Alike r) Eq (addSymbol x) (addSymbol x') :=
  .bind .get fun _ _ h => .andThen (.set (h.added hx)) fun _ => .pure h.symbols.symm

theorem mirrors_assignAddress (frame v : Nat) (listed : Bool) :
    Mirrors (Alike r) Eq (assignAddress frame v listed) (assignAddress frame v listed) := by
  refine .bind .get fun t t' h => ?_
  have haddress : Alike r (t.modifySymbol v (.placed (t.scope frame).cells)) (t'.modifySymbol v (.placed (t.scope frame).cells)) := by
    refine h.modifySymbol v (fun x x' hx => ?_) fun x => by cases x <;> rfl
    cases hx with
    | object o place => exact .object { o with address := some (t.scope frame).cells } place
    | function f place => exact .function f place
  have hcells : (t'.scope frame).cells = (t.scope frame).cells := by rw [h.scope_eq]
  rw [hcells]
  have hlisted : ∀ {a a' : SymbolTable}, Alike r a a' →
      Alike r (if listed then a.modifyScope frame fun s => { s with addressed := s.addressed.push v } else a)
        (if listed then a'.modifyScope frame fun s => { s with addressed := s.addressed.push v } else a') := by
    intro a a' ha
    split
    · exact ha.modifyScope frame fun _ _ => rfl
    · exact ha
  have haddress := hlisted haddress
  refine .andThen (.set haddress) fun _ => .same (congrArg CType.size (haddress.symbol v).type) fun size _ => .modify fun t t' h => ?_
  exact h.modifyScope frame fun _ _ => rfl

theorem mirrors_insertString (raw : String) (codes : List Nat) (node : Nat) (type : CType) :
    Mirrors (Alike r) Eq (insertString raw codes node type) (insertString raw codes node type) := by
  refine .bind .get fun t t' h => ?_
  rw [findString, findString, h.strings]
  split
  · exact .pure rfl
  · refine .andThen (mirrors_addSymbol (.object _ _)) fun v => .andThen (mirrors_assignAddress _ _ _) fun _ => .modify fun t t' h => ?_
    exact { h with strings := by simp only [h.strings] }

/-! ## Insertion -/

theorem current_of_insertFunction (h : Runs (insertFunction f) t v u) : ∃ s, t.current = some s := by
  cases hc : t.current with
  | some s => exact ⟨s, rfl⟩
  | none => simp [insertFunction, insert, currentScope, hc] at h

theorem Alike.enteredNew (h : Alike r t t') {a a' : SymbolTable} (ha : Alike r a a') {name : Option String}
    (hentries : a.entries s = t.entries s) (hsymbol : ∀ w, a.symbol w = (t.added x).symbol w)
    (hsize : a.symbols.size = t.symbols.size + 1) (hadmits : r.Admits x name)
    (hclash : ∀ e ∈ t.entries s, e.1 = name → name = none ∨ x.isObject = false ∧ (t.symbol e.2).isObject = false) :
    Alike r (a.named s name t.symbols.size) (a'.named s (r.nameOf x name) t.symbols.size) := by
  have hnew : a.symbol t.symbols.size = x := (hsymbol _).trans (symbol_added t x)
  have hold : ∀ e ∈ t.entries s, a.symbol e.2 = t.symbol e.2 := fun e he => by
    rw [hsymbol, show (t.added x).symbol e.2 = _ from symbol_push t x e.2, if_neg (Nat.ne_of_lt (h.named s e he).1)]
  have hentered := ha.entered s (v := t.symbols.size) (by omega) (by rw [hnew]; exact hadmits) fun e he heq => by
    rw [hentries] at he
    rw [hnew, hold e he]
    exact hclash e he heq
  rw [hnew] at hentered
  exact hentered

theorem Alike.withFunction (h : Alike r t t') (place : Position) (s : Nat) (hadmits : r.Admits (.function f) f.name)
    (hclash : ∀ e ∈ t.entries s, e.1 = f.name → f.name = none ∨ (t.symbol e.2).isObject = false) :
    Alike r (t.withFunction s f) (t'.withFunction s { f with position := place }) := by
  unfold SymbolTable.withFunction
  rw [h.symbols]
  exact h.enteredNew (h.added (.function f place)) rfl (fun _ => rfl) (by simp [SymbolTable.added]) hadmits fun e he heq =>
      (hclash e he heq).imp_right fun hfunction => ⟨rfl, hfunction⟩

theorem Alike.withObject (h : Alike r t t') (place : Position) (s : Nat) (size : Int)
    (hadmits : r.Admits (.object o) o.name) (hclash : ∀ e ∈ t.entries s, e.1 = o.name → o.name = none) :
    Alike r (t.withObject s o size) (t'.withObject s { o with name := o.name.map r.map, position := place } size) := by
  have hadded := (h.added (.object { o with address := some (t.cellsOf s) } place)).allotted (t.frameOf s) t.symbols.size size
  unfold SymbolTable.withObject
  rw [h.cellsOf, h.frameOf, h.symbols]
  refine h.enteredNew hadded ?_ (fun _ => rfl) ?_ hadmits fun e he heq => .inl (hclash e he heq)
  · simp only [SymbolTable.entries, SymbolTable.allotted, scope_modifyScope]
    split
    · split <;> rfl
    · split <;> rfl
  · simp [SymbolTable.added, SymbolTable.allotted, SymbolTable.modifyScope]

/-- A symbol does not take the name of another in the open scope, unless both are functions. -/
def Fits (t : SymbolTable) (x : Symbol) : Prop := ∃ s, t.current = some s ∧ ∀ e ∈ t.entries s, e.1 = x.name →
  x.name = none ∨ x.isObject = false ∧ (t.symbol e.2).isObject = false

theorem Alike.insertFunction (h : Alike r t t') (place : Position) (hadmits : r.Admits (.function f) f.name)
    (hfits : t.Fits (.function f)) (hr : Runs (SymbolTable.insertFunction f) t v u) :
    ∃ u', Runs (SymbolTable.insertFunction { f with position := place }) t' v u' ∧ Alike r u u' := by
  obtain ⟨s, hc, hclash⟩ := hfits
  obtain ⟨rfl, rfl⟩ := (runs_insertFunction_iff hc).1 hr
  refine ⟨_, (runs_insertFunction_iff (h.current.trans hc)).2 ⟨h.symbols.symm, rfl⟩, ?_⟩
  rw [h.functionDepth]
  exact h.withFunction (f := { f with depth := t.functionDepth }) place s hadmits fun e he heq => (hclash e he heq).imp_right And.right

theorem Alike.insertObject (h : Alike r t t') (place : Position) (hadmits : r.Admits (.object o) o.name)
    (hfits : t.Fits (.object o)) (hr : Runs (SymbolTable.insertObject o) t v u) :
    ∃ u', Runs (SymbolTable.insertObject { o with name := o.name.map r.map, position := place }) t' v u' ∧ Alike r u u' := by
  obtain ⟨s, hc, hclash⟩ := hfits
  obtain ⟨rfl, size, hsize, rfl⟩ := (runs_insertObject_iff hc).1 hr
  refine ⟨_, (runs_insertObject_iff (h.current.trans hc)).2 ⟨h.symbols.symm, size, hsize, rfl⟩, ?_⟩
  refine h.withObject place s size hadmits fun e he heq => ?_
  obtain hnone | ⟨hobject, -⟩ := hclash e he heq
  · exact hnone
  · cases hobject

/-! ## Verdicts -/

theorem runs_verdict (hc : t.current = some s) : Runs (verdict x) t w u ↔
    u = t ∧ (match t.lookupIn s x.name 0 with
      | some v => conflict (t.symbol v) x
      | none => .ok .accept) = .ok w := by
  simp only [verdict, runs_bind, runs_currentScope hc, runs_get, and_assoc, exists_eq_left, exists_and_left]
  cases t.lookupIn s x.name 0 with
  | none => simp [and_comm, eq_comm]
  | some v => simp [and_comm]

theorem current_of_verdict (h : Runs (verdict x) t w u) : ∃ s, t.current = some s := by
  cases hc : t.current with
  | some s => exact ⟨s, rfl⟩
  | none => simp [verdict, currentScope, hc] at h

/-- At the first stage everything is visible. -/
theorem not_mem_of_lookupIn (h : t.lookupIn s (some y) 0 = none) : ∀ e ∈ t.entries s, e.1 ≠ some y := by
  have hvisible : ∀ v, (t.symbol v).isVisible 0 = true := fun v => by
    cases t.symbol v <;> simp [Symbol.isVisible]
  exact named?_eq_none (by simpa [lookupIn_eq, hvisible] using h)

/-- A symbol that is accepted or left out is so under other names, too. -/
theorem Alike.verdict (h : Alike r t t') (hx : x.Alike r x') (hadmits : r.Admits x x.name)
    (hw : w = .accept ∨ w = .ignore) (hr : Runs (SymbolTable.verdict x) t w u) :
    u = t ∧ Runs (SymbolTable.verdict x') t' w t' ∧ (w = .accept → t.Fits x) := by
  obtain ⟨s, hc⟩ := current_of_verdict hr
  obtain ⟨rfl, hverdict⟩ := (runs_verdict hc).1 hr
  have hlookup : ∀ y, x.name = some y → t'.lookupIn s x'.name 0 =
      (u.lookupIn s x.name 0).filter fun v => (u.symbol v).isObject = x.isObject := fun y hy => by
    rw [hx.name, hy]
    exact h.lookupIn (hy ▸ hadmits) s 0
  refine ⟨rfl, ?_⟩
  rw [runs_verdict (h.current.trans hc)]
  cases hfound : u.lookupIn s x.name 0 with
  | none =>
    rw [hfound] at hverdict
    obtain rfl := Except.ok.inj hverdict
    refine ⟨⟨rfl, ?_⟩, fun _ => ⟨s, hc, fun e he heq => ?_⟩⟩
    · have hfound' : t'.lookupIn s x'.name 0 = none := by
        cases hname : x.name with
        | none => rw [hx.name, hname]; cases x <;> rfl
        | some y => rw [hlookup y hname, hfound]; rfl
      rw [hfound']
    · cases hname : x.name with
      | none => exact .inl rfl
      | some y => exact (not_mem_of_lookupIn (hname ▸ hfound) e he (heq.trans hname)).elim
  | some v =>
    rw [hfound] at hverdict
    have hverdict : conflict (u.symbol v) x = .ok w := hverdict
    obtain ⟨hmem, hname⟩ := mem_of_lookupIn hfound
    obtain ⟨y, hy⟩ := Option.ne_none_iff_exists'.1 hname
    cases hx with
    | object o place =>
      obtain rfl | rfl := hw
      · exact ((conflict_object _ o).1 hverdict).elim
      · exact ((conflict_object _ o).2 hverdict).elim
    | function g place =>
      have hsymbol := h.symbol v
      cases hv : u.symbol v with
      | object o =>
        rw [hv] at hverdict
        cases hdeclarator : o.byDeclarator <;> simp [conflict, hdeclarator, pure, Except.pure] at hverdict <;>
          obtain rfl := hverdict <;> simp at hw
      | function f =>
        rw [hv] at hsymbol hverdict
        have hfound' : t'.lookupIn s (Symbol.function { g with position := place }).name 0 = some v := by
          rw [hlookup y hy, hfound, Option.filter_some, hv]
          rfl
        refine ⟨⟨rfl, ?_⟩, fun _ => ⟨s, hc, fun e he heq => .inr ⟨rfl, ?_⟩⟩⟩
        · rw [hfound']
          change conflict (t'.symbol v) _ = .ok w
          generalize t'.symbol v = z at hsymbol ⊢
          cases hsymbol with
          | function f place' => exact hverdict
        · have heq' := List.inj_on_of_nodup_map (h.nodup s) he hmem heq
          rw [heq', hv]
          rfl

/-- What is entered under a name that is of no variable is a function. -/
theorem Alike.function_of_name (h : Alike r t t') {i : Nat} (hy : y ∉ r.objects) {e : Option String × Nat}
    (he : e ∈ t.entries i) (hname : e.1 = some y) : (t.symbol e.2).isObject = false := by
  have hadmits := (h.named i e he).2
  cases hsymbol : t.symbol e.2 with
  | function f => rfl
  | object o =>
    rw [hsymbol] at hadmits
    exact (hy (hadmits y hname)).elim

/-- The rule for a library function is the same under other names. -/
theorem mirrors_verdict_library (hname : x.name = some y) (hy : y ∈ r.functions ∧ y ∉ r.objects) :
    Mirrors (Alike r) (fun w w' => Resolve.includeLibrary.inserts w' = Resolve.includeLibrary.inserts w) (verdict x)
      (verdict x) := by
  intro t t' w u h hr
  obtain ⟨s, hc⟩ := current_of_verdict hr
  obtain ⟨rfl, hverdict⟩ := (runs_verdict hc).1 hr
  have hlookup : t'.lookupIn s (some y) 0 = u.lookupIn s (some y) 0 := by
    have hlibrary : r.Admits (.function default) (some y) := fun z hz => Option.some.inj hz ▸ hy.1
    have hfilter := h.lookupIn hlibrary s 0
    refine hfilter.trans ?_
    cases hfound : u.lookupIn s (some y) 0 with
    | none => rfl
    | some v => rw [Option.filter_some, h.function_of_name hy.2 (mem_of_lookupIn hfound).1 rfl]; rfl
  suffices ∃ w', Runs (verdict x) t' w' t' ∧ Resolve.includeLibrary.inserts w' = Resolve.includeLibrary.inserts w by
    obtain ⟨w', hw', heq⟩ := this
    exact ⟨w', t', hw', heq, h⟩
  simp only [runs_verdict (h.current.trans hc), true_and, hname, hlookup] at hverdict ⊢
  cases hfound : u.lookupIn s (some y) 0 with
  | none => exact ⟨.accept, rfl, by rw [hfound] at hverdict; cases hverdict; rfl⟩
  | some v =>
    rw [hfound] at hverdict
    have hverdict : conflict (u.symbol v) x = .ok w := hverdict
    have hobject := h.function_of_name hy.2 (mem_of_lookupIn hfound).1 rfl
    have hsymbol := h.symbol v
    change ∃ w', conflict (t'.symbol v) x = .ok w' ∧ _
    generalize u.symbol v = z at hsymbol hobject hverdict
    generalize t'.symbol v = z' at hsymbol ⊢
    cases hsymbol with
    | object o place => cases hobject
    | function f place =>
      cases x with
      | function g => exact ⟨w, hverdict, rfl⟩
      | object o => cases hverdict; exact ⟨_, rfl, rfl⟩

theorem mirrors_insert_library (hy : y ∈ r.functions ∧ y ∉ r.objects) :
    Mirrors (Alike r) Eq (insertFunction (Resolve.libraryFunction y)) (insertFunction (Resolve.libraryFunction y)) := by
  intro t t' v u h hr
  have hadmits : r.Admits (.function (Resolve.libraryFunction y)) (some y) := fun z hz => Option.some.inj hz ▸ hy.1
  obtain ⟨s, hc⟩ := current_of_insertFunction hr
  have hfits : t.Fits (.function (Resolve.libraryFunction y)) :=
    ⟨s, hc, fun e he heq => .inr ⟨rfl, h.function_of_name hy.2 he heq⟩⟩
  obtain ⟨u', hr', halike⟩ := h.insertFunction (0, 0) hadmits hfits hr
  exact ⟨v, u', hr', rfl, halike⟩

end

end SymbolTable

end MiniC
