import MiniC.Proofs.IntLang.Semantics

/-!
# Syntax trees of the integer language

`Items ok pl ns p` says that the nodes `ns` stand for the program `p` at a place `pl`, and that `ok` holds of the
kind of each node that the passes look at, at the place of that node; there is such a relation for each sort of
nodes. A place says which scope is open there, how many scopes were made before, and what is bound.

The relations follow the trees in the order of the passes. `readProgram` gives trees with no condition; each
pass takes them to trees with a stronger one.
-/

namespace MiniC.IntLang

open Option (map_eq_some_iff bind_eq_some_iff ite_none_right_eq_some)

variable {ns ts is : List Node}

/-! ## Places -/

/-- Where a node stands, in the order of a pass. -/
structure Place where
  scope : Nat
  /-- The number of scopes made before. -/
  scopes : Nat
  env : Env
  loop : Bool

namespace Place

def declare (pl : Place) (x : String) : Place := { pl with env := pl.env.declare x }

def opened (pl : Place) : Place := { pl with scope := pl.scopes, scopes := pl.scopes + 1, env := pl.env.opened }

def looped (pl : Place) : Place := { pl with loop := true }

/-- Behind a part that is in a scope of its own, from where the part ends. -/
def closed (pl inner : Place) : Place :=
  { pl with scopes := inner.scopes, env := { pl.env with next := inner.env.next } }

def function (pl : Place) : Place := ⟨pl.scopes, pl.scopes + 1, ⟨[[]], pl.env.globals, 0⟩, false⟩

/-- Behind a function, from where it ends. -/
def returned (pl inner : Place) : Place := { pl with scopes := inner.scopes }

def start : Place := ⟨0, 1, ⟨[], [], 0⟩, false⟩

end Place

/-- The place behind a statement. -/
def Stmt.after : Stmt → Place → Place
  | .seq a b, pl => b.after (a.after pl)
  | .decl x _, pl => pl.declare x
  | .block s, pl => pl.closed (s.after pl.opened)
  | .ifThen _ a, pl => a.after pl
  | .ifElse _ a b, pl => b.after (a.after pl)
  | .whileLoop _ s, pl => { s.after pl.looped with loop := pl.loop }
  | .forLoop init _ _ s, pl => pl.closed (s.after (init.after pl.opened).looped)
  | _, pl => pl

@[simp] theorem Stmt.env_after (s : Stmt) (pl : Place) : (s.after pl).env = s.bind pl.env := by
  induction s generalizing pl with
  | seq a b iha ihb => simp [Stmt.after, Stmt.bind, iha, ihb]
  | block s ih => simp [Stmt.after, Stmt.bind, Place.closed, Place.opened, ih]
  | ifThen c a iha => simp [Stmt.after, Stmt.bind, iha]
  | ifElse c a b iha ihb => simp [Stmt.after, Stmt.bind, iha, ihb]
  | whileLoop c s ih => simp [Stmt.after, Stmt.bind, Place.looped, ih]
  | forLoop init c it s ihi ih => simp [Stmt.after, Stmt.bind, Place.closed, Place.opened, Place.looped, ih, ihi]
  | _ => rfl

@[simp] theorem Stmt.scope_after (s : Stmt) (pl : Place) : (s.after pl).scope = pl.scope := by
  induction s generalizing pl with
  | seq a b iha ihb => simp [Stmt.after, iha, ihb]
  | ifThen c a iha => simp [Stmt.after, iha]
  | ifElse c a b iha ihb => simp [Stmt.after, iha, ihb]
  | whileLoop c s ih => simp [Stmt.after, Place.looped, ih]
  | _ => rfl

@[simp] theorem Stmt.loop_after (s : Stmt) (pl : Place) : (s.after pl).loop = pl.loop := by
  induction s generalizing pl with
  | seq a b iha ihb => simp [Stmt.after, iha, ihb]
  | ifThen c a iha => simp [Stmt.after, iha]
  | ifElse c a b iha ihb => simp [Stmt.after, iha, ihb]
  | _ => rfl

/-! ## Trees -/

/-- Nodes stand for expressions; the condition is one on names and calls. -/
inductive Exprs (ok : Kind → Prop) : List Node → List Expr → Prop
  | nil : Exprs ok [] []
  | cons {n ns e es} : Exprs ok [n] [e] → Exprs ok ns es → Exprs ok (n :: ns) (e :: es)
  | int {id o v} : Exprs ok [.mk id (.integer v) o []] [.int v]
  | var {id o x t v} : ok (.name x t v) → Exprs ok [.mk id (.name x t v) o []] [.var x]
  | call {id id' o o' f callee pieces ns es} : ok (.call (some f) callee pieces) → Exprs ok ns es →
      Exprs ok [.mk id (.call (some f) callee pieces) o [.mk id' .arguments o' ns]] [.call f es]
  | plus {id o side n e} : Exprs ok [n] [e] → Exprs ok [.mk id (.unary .plus side) o [n]] [.plus e]
  | minus {id o side n e} : Exprs ok [n] [e] → Exprs ok [.mk id (.unary .minus side) o [n]] [.minus e]
  | step {id id' o o' side x t v} (up : Bool) : ok (.name x t v) →
      Exprs ok [.mk id (.unary (if up then .increment else .decrement) side) o [.mk id' (.name x t v) o' []]]
        [.step up side x]
  | not {id o n e} : Exprs ok [n] [e] → Exprs ok [.mk id .logicalNot o [n]] [.not e]
  | arith {id o op l r a b} : Exprs ok [l, r] [a, b] → Exprs ok [.mk id (.arith op) o [l, r]] [.arith op a b]
  | compare {id o op l r a b} : Exprs ok [l, r] [a, b] → Exprs ok [.mk id (.compare op) o [l, r]] [.compare op a b]
  | logic {id o op l r a b} : Exprs ok [l, r] [a, b] → Exprs ok [.mk id (.logic op) o [l, r]] [.logic op a b]
  | cond {id o n l r c a b} : Exprs ok [n, l, r] [c, a, b] →
      Exprs ok [.mk id .conditional o [n, l, r]] [.cond c a b]
  | comma {id o l r a b} : Exprs ok [l, r] [a, b] → Exprs ok [.mk id .comma o [l, r]] [.comma a b]
  | assign {id id' o o' x t v n e} : ok (.name x t v) → Exprs ok [n] [e] →
      Exprs ok [.mk id .assign o [.mk id' (.name x t v) o' [], n]] [.assign x e]

/-- Expressions whose names and calls meet another condition too. -/
theorem Exprs.imp {ok ok' : Kind → Prop} {es : List Expr} (h : Exprs ok ns es)
    (hname : ∀ x t v, ok (.name x t v) → ok' (.name x t v))
    (hcall : ∀ f callee pieces, ok (.call f callee pieces) → ok' (.call f callee pieces)) : Exprs ok' ns es := by
  induction h with
  | nil => exact .nil
  | cons _ _ ih ih' => exact .cons ih ih'
  | int => exact .int
  | var h => exact .var (hname _ _ _ h)
  | call h _ ih => exact .call (hcall _ _ _ h) ih
  | plus _ ih => exact .plus ih
  | minus _ ih => exact .minus ih
  | step up h => exact .step up (hname _ _ _ h)
  | not _ ih => exact .not ih
  | arith _ ih => exact .arith ih
  | compare _ ih => exact .compare ih
  | logic _ ih => exact .logic ih
  | cond _ ih => exact .cond ih
  | comma _ ih => exact .comma ih
  | assign h _ ih => exact .assign (hname _ _ _ h) ih

/-- The children of a declarator. -/
inductive Initial (ok : Kind → Prop) : List Node → Option Expr → Prop
  | none : Initial ok [] none
  | some {id o n e} : Exprs ok [n] [e] → Initial ok [.mk id (.initializerList false) o [n]] (some e)

/-- Nodes declare variables one after the other. -/
inductive Decls (ok : Place → Kind → Prop) : Place → List Node → Stmt → Prop
  | nil {pl} : Decls ok pl [] .skip
  | cons {pl id o x v ns init ds s} : ok pl (.declarator ⟨some x, [], v⟩) → Initial (ok (pl.declare x)) ns init →
      Decls ok (pl.declare x) ds s →
      Decls ok pl (.mk id (.declarator ⟨some x, [], v⟩) o ns :: ds) (.seq (.decl x init) s)

/-- What a loop does first. -/
inductive First (ok : Place → Kind → Prop) (pl : Place) : List Node → Stmt → Prop
  | none : First ok pl [] .skip
  | decls {id o spec ds s} : spec.base = .int → Decls ok pl ds s →
      First ok pl [.mk id (.variableDeclaration spec) o ds] s
  | expr {n e} : Exprs (ok pl) [n] [e] → First ok pl [n] (.expr e)

/-- A part of the header of a loop that may be missing. -/
inductive Part (ok : Kind → Prop) : List Node → Option Expr → Prop
  | none : Part ok [] none
  | some {n e} : Exprs ok [n] [e] → Part ok [n] (some e)

inductive Stmts (ok : Place → Kind → Prop) : Place → List Node → Stmt → Prop
  | nil {pl} : Stmts ok pl [] .skip
  | cons {pl n ns s t} : Stmts ok pl [n] s → Stmts ok (s.after pl) ns t → Stmts ok pl (n :: ns) (.seq s t)
  | empty {pl id o} : Stmts ok pl [.mk id .statement o []] .skip
  | expr {pl id o n e} : Exprs (ok pl) [n] [e] → Stmts ok pl [.mk id .statement o [n]] (.expr e)
  | decls {pl id id' o o' spec ds s} : spec.base = .int → Decls ok pl ds s →
      Stmts ok pl [.mk id .statement o [.mk id' (.variableDeclaration spec) o' ds]] s
  | block {pl id id' o o' ns s} : ok pl .statements → Stmts ok pl.opened ns s →
      Stmts ok pl [.mk id .statement o [.mk id' .statements o' ns]] (.block s)
  | ifThen {pl id id' o o' n a c s} : Exprs (ok pl) [n] [c] → Stmts ok pl [a] s →
      Stmts ok pl [.mk id .statement o [.mk id' .ifStmt o' [n, a]]] (.ifThen c s)
  | ifElse {pl id id' id'' o o' o'' n a b c s t} : Exprs (ok pl) [n] [c] → Stmts ok pl [a] s →
      Stmts ok (s.after pl) [b] t →
      Stmts ok pl [.mk id .statement o [.mk id' .ifStmt o' [n, a, .mk id'' .elseBranch o'' [b]]]] (.ifElse c s t)
  | whileLoop {pl id id' o o' n a c s} : Exprs (ok pl) [n] [c] → Stmts ok pl.looped [a] s →
      Stmts ok pl [.mk id .statement o [.mk id' .whileLoop o' [n, a]]] (.whileLoop c s)
  | forLoop {pl id id' o o' is cs ts b init c it s} :
      ok pl (.forLoop (!is.isEmpty) (!cs.isEmpty) (!ts.isEmpty)) → First ok pl.opened is init →
      Part (ok (init.after pl.opened)) cs c → Part (ok (init.after pl.opened)) ts it →
      Stmts ok (init.after pl.opened).looped [b] s → (∀ t ∈ ts, ∀ n ∈ is ++ cs, n.id ≠ t.id) →
      Stmts ok pl [.mk id .statement o [.mk id' (.forLoop (!is.isEmpty) (!cs.isEmpty) (!ts.isEmpty)) o'
        (is ++ cs ++ ts ++ [b])]] (.forLoop init c it s)
  | ret {pl id id' o o' n e} : Exprs (ok pl) [n] [e] →
      Stmts ok pl [.mk id .statement o [.mk id' .returnStmt o' [n]]] (.ret e)
  | brk {pl id id' o o'} : ok pl .breakStmt → Stmts ok pl [.mk id .statement o [.mk id' .breakStmt o' []]] .brk
  | cont {pl id id' o o'} : ok pl .continueStmt →
      Stmts ok pl [.mk id .statement o [.mk id' .continueStmt o' []]] .cont

/-- The place behind parameters. -/
def Place.params (pl : Place) (xs : List String) : Place := xs.foldl Place.declare pl

section

variable {pl : Place} (xs : List String)

@[simp] theorem Place.scope_params : (pl.params xs).scope = pl.scope := by
  induction xs generalizing pl with
  | nil => rfl
  | cons x xs ih => exact ih

@[simp] theorem Place.loop_params : (pl.params xs).loop = pl.loop := by
  induction xs generalizing pl with
  | nil => rfl
  | cons x xs ih => exact ih

@[simp] theorem Place.env_params : (pl.params xs).env = xs.foldl Env.declare pl.env := by
  induction xs generalizing pl with
  | nil => rfl
  | cons x xs ih => exact ih

end

inductive Params (ok : Place → Kind → Prop) : Place → List Node → List String → Prop
  | nil {pl} : Params ok pl [] []
  | void {pl id o const typed} : Params ok pl [.mk id (.parameter ⟨⟨.void, typed, const⟩, none, []⟩) o []] []
  | cons {pl id o spec x ns xs} : spec.base = .int → ok pl (.parameter ⟨spec, some x, []⟩) →
      Params ok (pl.declare x) ns xs → Params ok pl (.mk id (.parameter ⟨spec, some x, []⟩) o [] :: ns) (x :: xs)

/-- The global variables that are declared one after the other. -/
def Stmt.items : Stmt → Program
  | .seq (.decl x init) s => .var x init :: s.items
  | _ => []

def Function.after (f : Function) (pl : Place) : Place := f.body.after (pl.function.params f.params)

/-- Nodes stand for the items of a program; there is a condition on the number of cells of a function too. -/
inductive Items (ok : Place → Kind → Prop) (sized : Place → Nat → Prop) : Place → List Node → Program → Prop
  | nil {pl} : Items ok sized pl [] []
  | vars {pl id o spec ds s ns p} : spec.base = .int → Decls ok pl ds s → Items ok sized (s.after pl) ns p →
      Items ok sized pl (.mk id (.variableDeclaration spec) o ds :: ns) (s.items ++ p)
  | function {pl id id' id'' o o' o'' form spec f ps xs ss s ns p} : form.isDefinition = true → spec.base = .int →
      ok pl (.function ⟨form, spec, some f, []⟩) → sized pl (Function.after ⟨f, xs, s⟩ pl).env.next →
      Params ok pl.function ps xs → Stmts ok (pl.function.params xs) ss s →
      Items ok sized (pl.returned (Function.after ⟨f, xs, s⟩ pl)) ns p →
      Items ok sized pl (.mk id (.function ⟨form, spec, some f, []⟩) o [.mk id' .parameters o' ps, .mk id'' .statements o'' ss]
        :: ns) (.function ⟨f, xs, s⟩ :: p)

/-! ## Numbers of nodes -/

theorem isEmpty_of_ids {ns' : List Node} (h : ns'.map Node.id = ns.map Node.id) : ns.isEmpty = ns'.isEmpty := by
  simpa using congrArg List.isEmpty h.symm

theorem differ_of_ids {ns' ts' : List Node} (h : ns'.map Node.id = ns.map Node.id)
    (ht : ts'.map Node.id = ts.map Node.id) (hne : ∀ t ∈ ts, ∀ n ∈ ns, n.id ≠ t.id) :
    ∀ t ∈ ts', ∀ n ∈ ns', n.id ≠ t.id := by
  intro t' ht' n' hn'
  obtain ⟨t, htmem, hteq⟩ := List.mem_map.1 (ht ▸ List.mem_map_of_mem ht' : t'.id ∈ ts.map Node.id)
  obtain ⟨n, hnmem, hneq⟩ := List.mem_map.1 (h ▸ List.mem_map_of_mem hn' : n'.id ∈ ns.map Node.id)
  rw [← hteq, ← hneq]
  exact hne t htmem n hnmem

/-! ## Reading -/

def Any (_ : Kind) : Prop := True

def Anywhere (_ : Place) : Kind → Prop := Any

mutual

theorem exprs_of_readExpr {n : Node} {e : Expr} (h : readExpr n = some e) : Exprs Any [n] [e] := by
  obtain ⟨id, kind, o, children⟩ := n
  unfold readExpr at h
  split at h
  case h_1 => cases h; exact .int
  case h_2 => cases h; exact .var trivial
  case h_3 f _ _ _ _ args =>
    obtain ⟨es, hes, rfl⟩ := map_eq_some_iff.1 h
    exact .call trivial (exprs_of_readArgs hes)
  case h_4 n =>
    obtain ⟨e, he, rfl⟩ := map_eq_some_iff.1 h
    exact .plus (exprs_of_readExpr he)
  case h_5 n =>
    obtain ⟨e, he, rfl⟩ := map_eq_some_iff.1 h
    exact .minus (exprs_of_readExpr he)
  case h_6 => cases h; exact .step true trivial
  case h_7 => cases h; exact .step false trivial
  case h_8 n =>
    obtain ⟨e, he, rfl⟩ := map_eq_some_iff.1 h
    exact .not (exprs_of_readExpr he)
  case h_9 op l r =>
    obtain ⟨a, ha, h⟩ := bind_eq_some_iff.1 h
    obtain ⟨b, hb, rfl⟩ := map_eq_some_iff.1 h
    exact .arith (.cons (exprs_of_readExpr ha) (exprs_of_readExpr hb))
  case h_10 op l r =>
    obtain ⟨a, ha, h⟩ := bind_eq_some_iff.1 h
    obtain ⟨b, hb, rfl⟩ := map_eq_some_iff.1 h
    exact .compare (.cons (exprs_of_readExpr ha) (exprs_of_readExpr hb))
  case h_11 op l r =>
    obtain ⟨a, ha, h⟩ := bind_eq_some_iff.1 h
    obtain ⟨b, hb, rfl⟩ := map_eq_some_iff.1 h
    exact .logic (.cons (exprs_of_readExpr ha) (exprs_of_readExpr hb))
  case h_12 n l r =>
    obtain ⟨c, hc, h⟩ := bind_eq_some_iff.1 h
    obtain ⟨a, ha, h⟩ := bind_eq_some_iff.1 h
    obtain ⟨b, hb, rfl⟩ := map_eq_some_iff.1 h
    exact .cond (.cons (exprs_of_readExpr hc) (.cons (exprs_of_readExpr ha) (exprs_of_readExpr hb)))
  case h_13 l r =>
    obtain ⟨a, ha, h⟩ := bind_eq_some_iff.1 h
    obtain ⟨b, hb, rfl⟩ := map_eq_some_iff.1 h
    exact .comma (.cons (exprs_of_readExpr ha) (exprs_of_readExpr hb))
  case h_14 n =>
    obtain ⟨e, he, rfl⟩ := map_eq_some_iff.1 h
    exact .assign trivial (exprs_of_readExpr he)
  case h_15 => cases h

theorem exprs_of_readArgs {ns : List Node} {es : List Expr} (h : readArgs ns = some es) : Exprs Any ns es := by
  cases ns with
  | nil => cases h; exact .nil
  | cons n ns =>
    obtain ⟨e, he, h⟩ := bind_eq_some_iff.1 h
    obtain ⟨es, hes, rfl⟩ := map_eq_some_iff.1 h
    exact .cons (exprs_of_readExpr he) (exprs_of_readArgs hes)

end

theorem decls_of_readDeclarators {ds : List Node} {s : Stmt} (pl : Place) (h : readDeclarators ds = some s) :
    Decls Anywhere pl ds s := by
  induction ds generalizing pl s with
  | nil => cases h; exact .nil
  | cons d ds ih =>
    obtain ⟨⟨x, init⟩, hd, h⟩ := bind_eq_some_iff.1 h
    obtain ⟨s, hs, rfl⟩ := map_eq_some_iff.1 h
    unfold readDeclarator at hd
    split at hd
    · cases hd
      exact .cons trivial .none (ih _ hs)
    · obtain ⟨e, he, heq⟩ := map_eq_some_iff.1 hd
      cases heq
      exact .cons trivial (.some (exprs_of_readExpr he)) (ih _ hs)
    · cases hd

theorem first_of_readInitializer {is : List Node} {s : Stmt} (pl : Place) (hlen : is.length ≤ 1)
    (h : readInitializer is.head? = some s) : First Anywhere pl is s := by
  match is, hlen with
  | [], _ => cases h; exact .none
  | [.mk id kind o children], _ =>
    simp only [List.head?_cons, readInitializer] at h
    split at h
    next spec =>
      simp only [ite_none_right_eq_some] at h
      exact .decls h.1 (decls_of_readDeclarators pl h.2)
    next =>
      obtain ⟨e, he, rfl⟩ := map_eq_some_iff.1 h
      exact .expr (exprs_of_readExpr he)

theorem part_of_readOption {c : Option Expr} (hlen : ns.length ≤ 1) (h : readOption ns.head? = some c) :
    Part Any ns c := by
  match ns, hlen with
  | [], _ => cases h; exact .none
  | [n], _ =>
    obtain ⟨e, he, rfl⟩ := map_eq_some_iff.1 h
    exact .some (exprs_of_readExpr he)

theorem readEach_eq (ns : List Node) : readEach ns = ns.map readStmt := by
  induction ns with
  | nil => rfl
  | cons n ns ih => simp [readEach, ih]

/-- The children of a loop with a header are the parts of the header and its body. -/
theorem parts_of_drop {parts : List Node} {a b c : Bool} {s : Option Stmt}
    (h : (parts.map readStmt).drop (a.toNat + b.toNat + c.toNat) = [s]) :
    ∃ is cs ts body, parts = is ++ cs ++ ts ++ [body] ∧ is.length = a.toNat ∧ cs.length = b.toNat ∧
      ts.length = c.toNat ∧ readStmt body = s := by
  rw [← List.map_drop] at h
  obtain ⟨body, hbody, hs⟩ := List.map_eq_singleton_iff.1 h
  have hlen := congrArg List.length hbody
  simp only [List.length_drop, List.length_singleton] at hlen
  refine ⟨parts.take a.toNat, (parts.drop a.toNat).take b.toNat, (parts.drop (a.toNat + b.toNat)).take c.toNat, body,
    ?_, by simp; omega, by simp; omega, by simp; omega, hs⟩
  have h1 := List.take_append_drop a.toNat parts
  have h2 := List.take_append_drop b.toNat (parts.drop a.toNat)
  have h3 := List.take_append_drop c.toNat (parts.drop (a.toNat + b.toNat))
  rw [List.drop_drop] at h2 h3
  rw [List.append_assoc, List.append_assoc, ← hbody, h3, h2, h1]

theorem eq_of_length_toNat {b : Bool} (h : ns.length = b.toNat) : b = !ns.isEmpty ∧ (ns = [] ∨ ∃ n, ns = [n]) := by
  cases b with
  | false => simp_all
  | true =>
    obtain ⟨n, rfl⟩ := List.length_eq_one_iff.1 h
    simp

theorem header_parts {id : Nat} {o : Option ParseTree} {cs : List Node} {body : Node} (ha : is = [] ∨ ∃ n, is = [n])
    (hb : cs = [] ∨ ∃ n, cs = [n]) (hc : ts = [] ∨ ∃ n, ts = [n]) :
    (Node.mk id (.forLoop (!is.isEmpty) (!cs.isEmpty) (!ts.isEmpty)) o (is ++ cs ++ ts ++ [body])).header =
      ⟨is.head?, cs.head?, ts.head?⟩ := by
  obtain rfl | ⟨n, rfl⟩ := ha <;> obtain rfl | ⟨n', rfl⟩ := hb <;> obtain rfl | ⟨n'', rfl⟩ := hc <;> rfl

theorem length_le_one (h : ns = [] ∨ ∃ n, ns = [n]) : ns.length ≤ 1 := by
  obtain rfl | ⟨n, rfl⟩ := h <;> simp

theorem ids_differ {cs : List Node} (ha : is = [] ∨ ∃ n, is = [n]) (hb : cs = [] ∨ ∃ n, cs = [n])
    (hc : ts = [] ∨ ∃ n, ts = [n]) (h : partsDiffer ⟨is.head?, cs.head?, ts.head?⟩ = true) :
    ∀ t ∈ ts, ∀ n ∈ is ++ cs, n.id ≠ t.id := by
  obtain rfl | ⟨i, rfl⟩ := ha <;> obtain rfl | ⟨c, rfl⟩ := hb <;> obtain rfl | ⟨t, rfl⟩ := hc <;>
    simp_all [partsDiffer]

mutual

theorem stmts_of_readStmt {n : Node} {s : Stmt} (pl : Place) (h : readStmt n = some s) : Stmts Anywhere pl [n] s := by
  match n with
  | .mk _ .statement _ [] => cases h; exact .empty
  | .mk _ .statement _ [n] => exact stmts_of_readInner pl h
  | .mk _ .statement _ (_ :: _ :: _) => cases h
termination_by sizeOf n

theorem stmts_of_readInner {id : Nat} {o : Option ParseTree} {n : Node} {s : Stmt} (pl : Place)
    (h : readInner n = some s) : Stmts Anywhere pl [.mk id .statement o [n]] s := by
  match n with
  | .mk id' kind o' children =>
  unfold readInner at h
  simp only at h
  split at h
  case h_1 ss =>
    obtain ⟨s, hs, rfl⟩ := map_eq_some_iff.1 h
    exact .block trivial (stmts_of_readStmts _ hs)
  case h_2 n a =>
    obtain ⟨c, hc, h⟩ := bind_eq_some_iff.1 h
    obtain ⟨s, hs, rfl⟩ := map_eq_some_iff.1 h
    exact .ifThen (exprs_of_readExpr hc) (stmts_of_readStmt _ hs)
  case h_3 n a _ _ b =>
    obtain ⟨c, hc, h⟩ := bind_eq_some_iff.1 h
    obtain ⟨s, hs, h⟩ := bind_eq_some_iff.1 h
    obtain ⟨t, ht, rfl⟩ := map_eq_some_iff.1 h
    exact .ifElse (exprs_of_readExpr hc) (stmts_of_readStmt _ hs) (stmts_of_readStmt _ ht)
  case h_4 n a =>
    obtain ⟨c, hc, h⟩ := bind_eq_some_iff.1 h
    obtain ⟨s, hs, rfl⟩ := map_eq_some_iff.1 h
    exact .whileLoop (exprs_of_readExpr hc) (stmts_of_readStmt _ hs)
  case h_5 a b c =>
    split at h
    next s heq =>
      simp only [ite_none_right_eq_some] at h
      obtain ⟨hdiff, h⟩ := h
      rw [readEach_eq] at heq
      obtain ⟨is, cs, ts, body, rfl, ha, hb, hc, hs⟩ := parts_of_drop heq
      obtain ⟨rfl, his⟩ := eq_of_length_toNat ha
      obtain ⟨rfl, hcs⟩ := eq_of_length_toNat hb
      obtain ⟨rfl, hts⟩ := eq_of_length_toNat hc
      rw [header_parts his hcs hts] at h hdiff
      obtain ⟨init, hinit, h⟩ := bind_eq_some_iff.1 h
      obtain ⟨c, hcond, h⟩ := bind_eq_some_iff.1 h
      obtain ⟨it, hit, rfl⟩ := map_eq_some_iff.1 h
      have hsize : sizeOf body < sizeOf (is ++ cs ++ ts ++ [body]) := List.sizeOf_lt_of_mem (by simp)
      refine .forLoop trivial (first_of_readInitializer _ (length_le_one his) hinit)
        (part_of_readOption (length_le_one hcs) hcond) (part_of_readOption (length_le_one hts) hit)
        (stmts_of_readStmt _ hs) (ids_differ his hcs hts hdiff)
    next => cases h
  case h_6 n =>
    obtain ⟨e, he, rfl⟩ := map_eq_some_iff.1 h
    exact .ret (exprs_of_readExpr he)
  case h_7 => cases h; exact .brk trivial
  case h_8 => cases h; exact .cont trivial
  case h_9 spec ds =>
    simp only [ite_none_right_eq_some] at h
    exact .decls h.1 (decls_of_readDeclarators pl h.2)
  case h_10 =>
    obtain ⟨e, he, rfl⟩ := map_eq_some_iff.1 h
    exact .expr (exprs_of_readExpr he)
termination_by sizeOf n

theorem stmts_of_readStmts {ns : List Node} {s : Stmt} (pl : Place) (h : readStmts ns = some s) :
    Stmts Anywhere pl ns s := by
  cases ns with
  | nil => cases h; exact .nil
  | cons n ns =>
    obtain ⟨s, hs, h⟩ := bind_eq_some_iff.1 h
    obtain ⟨t, ht, rfl⟩ := map_eq_some_iff.1 h
    exact .cons (stmts_of_readStmt _ hs) (stmts_of_readStmts _ ht)
termination_by sizeOf ns

end

theorem params_of_mapM {ps : List Node} {xs : List String} (pl : Place) (h : ps.mapM readParameter = some xs) :
    Params Anywhere pl ps xs := by
  induction ps generalizing xs pl with
  | nil => cases h; exact .nil
  | cons n ns ih =>
    simp only [List.mapM_cons, bind, bind_eq_some_iff, pure, Option.some.injEq] at h
    obtain ⟨x, hx, xs, hxs, rfl⟩ := h
    unfold readParameter at hx
    split at hx
    · simp only [ite_none_right_eq_some, Option.some.injEq] at hx
      obtain ⟨hbase, rfl⟩ := hx
      exact .cons hbase trivial (ih _ hxs)
    · cases hx

theorem params_of_readParameters {ps : List Node} {xs : List String} (pl : Place) (h : readParameters ps = some xs) :
    Params Anywhere pl ps xs := by
  unfold readParameters at h
  split at h
  · cases h; exact .void
  · exact params_of_mapM pl h

theorem decls_of_readVariables {ds : List Node} {vs : Program} (pl : Place) (h : readVariables ds = some vs) :
    ∃ s, Decls Anywhere pl ds s ∧ s.items = vs := by
  induction ds generalizing pl vs with
  | nil => cases h; exact ⟨.skip, .nil, rfl⟩
  | cons d ds ih =>
    obtain ⟨⟨x, init⟩, hd, h⟩ := bind_eq_some_iff.1 h
    obtain ⟨vs, hvs, rfl⟩ := map_eq_some_iff.1 h
    obtain ⟨s, hs, rfl⟩ := ih (pl.declare x) hvs
    have hdecl : readDeclarators [d] = some (.seq (.decl x init) .skip) := by simp [readDeclarators, hd]
    cases decls_of_readDeclarators pl hdecl with
    | cons hok hinit _ => exact ⟨.seq (.decl x init) s, .cons hok hinit hs, rfl⟩

theorem items_of_readItems {p : Program} (pl : Place) (h : readItems ns = some p) :
    Items Anywhere (fun _ _ => True) pl ns p := by
  induction ns generalizing pl p with
  | nil => cases h; exact .nil
  | cons n ns ih =>
    obtain ⟨id, kind, o, children⟩ := n
    unfold readItems at h
    split at h
    next spec =>
      simp only [ite_none_right_eq_some] at h
      obtain ⟨hbase, h⟩ := h
      obtain ⟨vs, hvs, h⟩ := bind_eq_some_iff.1 h
      obtain ⟨p, hp, rfl⟩ := map_eq_some_iff.1 h
      obtain ⟨s, hs, rfl⟩ := decls_of_readVariables pl hvs
      exact .vars hbase hs (ih _ hp)
    next =>
      obtain ⟨f, hf, h⟩ := bind_eq_some_iff.1 h
      obtain ⟨p, hp, rfl⟩ := map_eq_some_iff.1 h
      unfold readFunction at hf
      split at hf
      next heq =>
        simp only [ite_none_right_eq_some] at hf
        obtain ⟨⟨hform, hbase⟩, hf⟩ := hf
        obtain ⟨xs, hxs, hf⟩ := bind_eq_some_iff.1 hf
        obtain ⟨s, hs, rfl⟩ := map_eq_some_iff.1 hf
        cases heq
        exact .function hform hbase trivial trivial (params_of_readParameters _ hxs) (stmts_of_readStmts _ hs) (ih _ hp)
      next => cases hf

end MiniC.IntLang
