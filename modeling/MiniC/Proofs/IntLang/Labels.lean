import MiniC.Proofs.Code.Linking
import MiniC.Proofs.IntLang.Tree

/-!
# Labels of the code

What stands in the items of a program is no function; so the labels in its code are those that the linking of code
speaks of, and code in which no two functions have one name can be loaded.
-/

namespace MiniC.IntLang

open Lexical (definition? definitions)

variable {ok : Kind → Prop} {okAt : Place → Kind → Prop} {sized : Place → Nat → Prop} {pl : Place} {ns : List Node}

/-- Among the nodes of a body there is no function. -/
abbrev Inside (ns : List Node) : Prop := Node.EachAll (fun k => k.isDefinition = false) ns

theorem inside_append {ns' : List Node} (h : Inside ns) (h' : Inside ns') : Inside (ns ++ ns') := by
  induction ns with
  | nil => exact h'
  | cons n ns ih => exact ⟨h.1, ih h.2⟩

theorem Exprs.inside {es : List Expr} (h : Exprs ok ns es) : Inside ns := by
  induction h with
  | nil => trivial
  | cons _ _ ih ih' => exact ⟨ih.1, ih'⟩
  | int | var _ => exact ⟨⟨rfl, trivial⟩, trivial⟩
  | call _ _ ih => exact ⟨⟨rfl, ⟨rfl, ih⟩, trivial⟩, trivial⟩
  | step up _ => cases up <;> exact ⟨⟨rfl, ⟨rfl, trivial⟩, trivial⟩, trivial⟩
  | assign _ _ ih => exact ⟨⟨rfl, ⟨rfl, trivial⟩, ih⟩, trivial⟩
  | plus _ ih | minus _ ih | not _ ih | arith _ ih | compare _ ih | logic _ ih | cond _ ih | comma _ ih =>
    exact ⟨⟨rfl, ih⟩, trivial⟩

theorem Decls.inside {s : Stmt} (h : Decls okAt pl ns s) : Inside ns := by
  induction h with
  | nil => trivial
  | cons _ hinit _ ih =>
    refine ⟨⟨rfl, ?_⟩, ih⟩
    cases hinit with
    | none => trivial
    | some h => exact ⟨⟨rfl, h.inside⟩, trivial⟩

theorem First.inside {s : Stmt} (h : First okAt pl ns s) : Inside ns := by
  cases h with
  | none => trivial
  | decls _ h => exact ⟨⟨rfl, h.inside⟩, trivial⟩
  | expr h => exact h.inside

theorem Part.inside {c : Option Expr} (h : Part ok ns c) : Inside ns := by
  cases h with
  | none => trivial
  | some h => exact h.inside

theorem Stmts.inside {s : Stmt} (h : Stmts okAt pl ns s) : Inside ns := by
  induction h with
  | nil => trivial
  | cons _ _ ih ih' => exact ⟨ih.1, ih'⟩
  | empty => exact ⟨⟨rfl, trivial⟩, trivial⟩
  | expr h => exact ⟨⟨rfl, h.inside⟩, trivial⟩
  | decls _ h => exact ⟨⟨rfl, ⟨rfl, h.inside⟩, trivial⟩, trivial⟩
  | block _ _ ih => exact ⟨⟨rfl, ⟨rfl, ih⟩, trivial⟩, trivial⟩
  | ifThen h _ ih => exact ⟨⟨rfl, ⟨rfl, h.inside.1, ih⟩, trivial⟩, trivial⟩
  | ifElse h _ _ ih ih' => exact ⟨⟨rfl, ⟨rfl, h.inside.1, ih.1, ⟨rfl, ih'⟩, trivial⟩, trivial⟩, trivial⟩
  | whileLoop h _ ih => exact ⟨⟨rfl, ⟨rfl, h.inside.1, ih⟩, trivial⟩, trivial⟩
  | forLoop _ hi hc ht _ _ ih =>
    refine ⟨⟨rfl, ⟨rfl, ?_⟩, trivial⟩, trivial⟩
    exact inside_append (inside_append (inside_append hi.inside hc.inside) ht.inside) ih
  | ret h => exact ⟨⟨rfl, ⟨rfl, h.inside⟩, trivial⟩, trivial⟩
  | brk _ | cont _ => exact ⟨⟨rfl, ⟨rfl, trivial⟩, trivial⟩, trivial⟩

theorem Decls.names {s : Stmt} {p : Program} {names : List String} (h : Decls okAt pl ns s)
    (hp : ∀ globals, names = (closures globals p).map (·.function.name)) (globals : List (String × Nat)) :
    names = (closures globals (s.items ++ p)).map (·.function.name) := by
  induction h generalizing globals with
  | nil => exact hp globals
  | cons _ _ _ ih => exact ih _

/-- What stands in the items of a program is no function, and the functions are those of the program. -/
theorem Items.linked {p : Program} (h : Items okAt sized pl ns p) :
    (∀ n ∈ ns, Emit.ItemLinked (fun _ => True) n ∧ (n.kind.isDefinition = true → (definition? n).isSome = true)) ∧
      ∀ globals, definitions ns = (closures globals p).map (·.function.name) := by
  have hinside : ∀ {n : Node}, Inside [n] → Emit.Linked (fun _ => True) n := fun h => h.1.mono fun k hk => ⟨Emit.Kind.callsIn_true k, hk⟩
  induction h with
  | nil => exact ⟨fun _ h => (by cases h), fun _ => rfl⟩
  | vars _ hds _ ih =>
    refine ⟨List.forall_mem_cons.2 ⟨⟨⟨fun h => (by cases h), fun _ d hd => ?_⟩, fun h => (by cases h)⟩, ih.1⟩, fun globals => ?_⟩
    · exact hinside ⟨Node.eachAll_iff.1 hds.inside d hd, trivial⟩
    · exact hds.names ih.2 globals
  | @function _ _ _ _ _ _ _ _ _ _ _ _ ss _ _ _ hform _ _ _ _ hss _ ih =>
    refine ⟨List.forall_mem_cons.2 ⟨⟨⟨fun _ c hc hkind => ?_, fun h => (by cases h)⟩, fun _ => ?_⟩, ih.1⟩, fun globals => ?_⟩
    · obtain rfl | rfl : c = _ ∨ c = _ := by simpa [Node.children] using hc
      · exact (hkind rfl).elim
      · exact hinside ⟨⟨rfl, hss.inside⟩, trivial⟩
    · simp [definition?, Node.kind, hform]
    · simp [definitions, definition?, Node.kind, hform, closures, ← ih.2 globals]

/-- The code of a program can be loaded if no two of its functions have the same name. -/
theorem Items.loads {n : Node} {p : Program} {t t' : SymbolTable} {code : List Line} (h : Items okAt sized pl n.children p)
    (hnames : ((closures [] p).map (·.function.name)).Nodup) (hcode : generate n t = (none, code, t')) :
    Machine.Loads code := by
  obtain ⟨hitems, hdefinitions⟩ := h.linked
  obtain ⟨s, hruns, hlines⟩ := runs_of_generate (congrArg Prod.fst hcode)
  obtain ⟨ls, hls, hprogram⟩ := Emit.makes_program (fun m hm => (hitems m hm).1) trivial (fun m hm => (hitems m hm).2) _ _ _ hruns
  rw [hcode] at hlines
  rw [show code = ls from hlines.trans (by simpa using hls)]
  exact hprogram.nodup (hdefinitions [] ▸ hnames)

end MiniC.IntLang
