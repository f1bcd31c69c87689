import Mathlib.Data.List.Nodup
import MiniC.Check.Program
import MiniC.Proofs.Pass.Run
import MiniC.Proofs.Syntax.Formed
import MiniC.Scope.Resolve
import MiniC.Syntax.ArrayLengths

/-!
# What the passes do to a tree

Filling in the lengths of arrays, filling the symbol table and resolving names change nothing but what `bare` takes
away. The check of types also puts lists around elements of initialisers: `Follows` relates the trees before and
after it.
-/

namespace MiniC

variable {n n' : Node} {s s' : PassState} {ns ns' : List Node}

open Node (bareAll)

namespace Node

/-- The second tree is the first one with something filled in. -/
def Like (n n' : Node) : Prop := n'.bare = n.bare

def LikeAll (ns ns' : List Node) : Prop := bareAll ns' = bareAll ns

end Node

open Node (LikeAll)

/-! ## Passes that fill in -/

section

variable {around : Option Kind} {k : Kind} {n n' : Node} {ns ns' : List Node}

theorem measured_bare (h : n.measured around = .ok k) : k.bare = n.kind.bare := by
  obtain ⟨id, kind, o, cs⟩ := n
  cases kind with
  | declarator head =>
    have hlengths : ∀ initial brackets, (do
        let layers ← Node.fillLengths initial head.layers.reverse brackets
        return .declarator { head with layers := layers.reverse }) = Except.ok k →
          k.bare = (Kind.declarator head).bare := by
      intro initial brackets h
      obtain ⟨layers, -, h⟩ := except_bind_eq_ok.1 h
      cases h
      rfl
    unfold Node.measured at h
    simp only [Node.kind, pure_bind] at h
    split at h
    · split at h
      · obtain ⟨type, -, h⟩ := except_bind_eq_ok.1 h
        exact hlengths _ _ h
      · exact hlengths _ _ h
    · exact hlengths _ _ h
  | parameter head =>
    obtain ⟨layers, -, h⟩ := except_bind_eq_ok.1 h
    cases h
    rfl
  | _ => cases h; rfl

mutual

theorem withLengths_bare {around : Option Kind} {n n' : Node} (h : n.withLengths around = .ok n') :
    n'.bare = n.bare := by
  match n with
  | .mk id kind o cs =>
    rw [Node.withLengths] at h
    obtain ⟨k, hk, h⟩ := except_bind_eq_ok.1 h
    obtain ⟨cs', hcs, h⟩ := except_bind_eq_ok.1 h
    cases h
    have hkind : k.bare = kind.bare := measured_bare hk
    rw [Node.bare, Node.bare, hkind, withLengthsAll_bare hcs]

theorem withLengthsAll_bare {around : Kind} {ns ns' : List Node} (h : Node.withLengthsAll around ns = .ok ns') :
    bareAll ns' = bareAll ns := by
  match ns with
  | [] =>
    rw [Node.withLengthsAll] at h
    cases h
    rfl
  | n :: ns =>
    rw [Node.withLengthsAll] at h
    obtain ⟨m, hm, h⟩ := except_bind_eq_ok.1 h
    obtain ⟨ms, hms, h⟩ := except_bind_eq_ok.1 h
    cases h
    rw [bareAll, bareAll, withLengths_bare hm, withLengthsAll_bare hms]

end

end

namespace Fill

theorem bare_decay (head : ParameterHead) : (Kind.parameter (decay head)).bare = (Kind.parameter head).bare := by
  unfold decay
  split <;> rfl

mutual

theorem gives_visit (above : List Node) (n : Node) : Gives n.Like (visit above n) := by
  match n with
  | .mk id kind o cs =>
    have hcs : ∀ inside (f : List Node → PassM Node),
        (∀ cs', LikeAll cs cs' → Gives (Node.mk id kind o cs).Like (f cs')) →
          Gives (Node.mk id kind o cs).Like (visitAll inside cs >>= f) :=
      fun inside f => (gives_visitAll inside cs).andThen
    rw [visit]
    refine .bind fun marked => ?_
    cases kind with
    | declarator head =>
      have hdone : ∀ inside symbol, Gives (Node.mk id (.declarator head) o cs).Like (do
          let cs' ← visitAll inside cs
          return .mk id (.declarator { head with symbol }) o cs') :=
        fun inside symbol => hcs inside _ fun cs' h => .pure (congrArg (Node.mk id _ o) h)
      have henter : Gives (Node.mk id (.declarator head) o cs).Like (do
          let type ← Pass.lift (Node.declaratorType (above.head?.map Node.kind) head)
          let (symbol, refused) ← enterObject (.mk id (.declarator head) o cs) above head.name type true
          if refused then return .mk id (.declarator head) o cs
          let cs' ← visitAll (.mk id (.declarator head) o cs :: above) cs
          return .mk id (.declarator { head with symbol }) o cs') := by
        refine .bind fun type => .bind fun (symbol, refused) => ?_
        cases refused
        · exact hdone _ _
        · exact .pure rfl
      split
      · exact .pure rfl
      · dsimp only
        split
        · refine .bind fun spec => ?_
          split
          · exact .bind fun _ => henter
          · exact henter
        · exact fun s n' s' hr => by simp at hr
    | _ => grind [Node.Like, LikeAll, Node.bare, Node.withChildren, Node.withKind, Kind.bare, bare_decay]

theorem gives_visitAll (above : List Node) (ns : List Node) :
    Gives (LikeAll ns) (visitAll above ns) := by
  match ns with
  | [] => rw [visitAll]; exact .pure rfl
  | n :: ns =>
    rw [visitAll]
    refine (gives_visit above n).andThen fun m hm => (gives_visitAll above ns).andThen fun ms hms => .pure ?_
    rw [LikeAll, bareAll, bareAll, hm, hms]

end

theorem bare_run (h : Runs (run n) s n' s') : n.Like n' :=
  gives_visit [] n s n' s' h

end Fill

namespace Resolve

theorem gives_resolveName (n : Node) (above : List Node) (text : String) (hk : n.kind.bare = (Kind.name text none none)) :
    Gives n.Like (resolveName n above text) := by
  obtain ⟨id, kind, o, cs⟩ := n
  refine .bind fun s => ?_
  split
  · exact .bind fun _ => .pure rfl
  · refine .bind fun stage => ?_
    have hnamed : ∀ type symbol, (Node.mk id kind o cs).Like (.mk id (.name text type symbol) o cs) := by
      intro type symbol
      have hk : (Kind.name text type symbol).bare = kind.bare := hk.symm
      rw [Node.Like, Node.bare, Node.bare, hk]
    split
    · exact .bind fun _ => .pure (hnamed _ _)
    · exact .pure (hnamed _ _)

mutual

theorem gives_visit (above : List Node) (n : Node) : Gives n.Like (visit above n) := by
  match n with
  | .mk id kind o cs =>
    have hcs : ∀ inside (f : List Node → PassM Node),
        (∀ cs', LikeAll cs cs' → Gives (Node.mk id kind o cs).Like (f cs')) →
          Gives (Node.mk id kind o cs).Like (visitAll inside cs >>= f) :=
      fun inside f => (gives_visitAll inside cs).andThen
    unfold visit
    cases kind with
    | name text type symbol =>
      refine .bind fun marked => ?_
      split
      · exact .pure rfl
      · exact gives_resolveName _ above text rfl
    | call called callee pieces =>
      refine .bind fun marked => ?_
      split
      · exact .pure rfl
      · refine .bind fun r => ?_
        cases r with
        | none => exact .pure rfl
        | some f => exact hcs _ _ fun cs' h => .pure (congrArg (Node.mk id _ o) h)
    | _ => grind [Node.Like, LikeAll, Node.bare, Node.withChildren, Node.withKind, Kind.bare]

theorem gives_visitAll (above : List Node) (ns : List Node) :
    Gives (LikeAll ns) (visitAll above ns) := by
  match ns with
  | [] => rw [visitAll]; exact .pure rfl
  | n :: ns =>
    rw [visitAll]
    refine (gives_visit above n).andThen fun m hm => (gives_visitAll above ns).andThen fun ms hms => .pure ?_
    rw [LikeAll, bareAll, bareAll, hm, hms]

end

theorem bare_run (h : Runs (run n) s n' s') : n.Like n' := by
  have hgives : Gives n.Like (run n) := by
    refine .bind fun _ => .bind fun before => (gives_visit [] n).andThen fun m hm => .bind fun _ => ?_
    split
    · exact .bind fun _ => .pure hm
    · exact .pure hm
  exact hgives s n' s' h

end Resolve

/-! ## The check of types -/

/-- Nothing but the pieces of a format was filled in. -/
def Kind.Refines (k k' : Kind) : Prop :=
  k' = k ∨ ∃ called callee pieces pieces', k = .call called callee pieces ∧ k' = .call called callee pieces'

theorem Kind.Refines.bare {k k' : Kind} (h : k.Refines k') : k'.bare = k.bare := by
  obtain rfl | ⟨called, callee, pieces, pieces', rfl, rfl⟩ := h <;> rfl

theorem Kind.Refines.trans {k k1 k' : Kind} (h : k.Refines k1) (h' : k1.Refines k') : k.Refines k' := by
  obtain rfl | ⟨called, callee, pieces, pieces1, rfl, rfl⟩ := h
  · exact h'
  · obtain rfl | ⟨_, _, _, pieces', heq, rfl⟩ := h'
    · exact .inr ⟨called, callee, pieces, pieces1, rfl, rfl⟩
    · cases heq
      exact .inr ⟨called, callee, pieces, pieces', rfl, rfl⟩

/-- Trees before and after the check of types. Inside an initialiser there may be new lists around its elements. -/
inductive Follows : Bool → List Node → List Node → Prop
  | nil {b : Bool} : Follows b [] []
  | node {b : Bool} {id : Nat} {kind kind' : Kind} {o : Option ParseTree} {cs cs' ns ns' : List Node}
      (hkind : kind.Refines kind') (hcs : Follows kind.isInitializerList cs cs') (hns : Follows b ns ns') :
      Follows b (.mk id kind o cs :: ns) (.mk id kind' o cs' :: ns')
  | wrapped {i : Nat} {o : Option ParseTree} {n : Node} {ns ns' : List Node}
      (h : Follows true (.mk i (.initializerList false) o [n] :: ns) ns') : Follows true (n :: ns) ns'

namespace Follows

variable {b : Bool} {n n' : Node} {ns ms ks ns' : List Node}

mutual

theorem refl_one (b : Bool) (n : Node) : Follows b [n] [n] := by
  match n with
  | .mk id kind o cs => exact .node (.inl rfl) (refl kind.isInitializerList cs) .nil

theorem refl (b : Bool) (ns : List Node) : Follows b ns ns := by
  match ns with
  | [] => exact .nil
  | .mk id kind o cs :: ns => exact .node (.inl rfl) (refl kind.isInitializerList cs) (refl b ns)

end

theorem append {as as' : List Node} (h : Follows b as as') (h' : Follows b ns ns') :
    Follows b (as ++ ns) (as' ++ ns') := by
  induction h with
  | nil => exact h'
  | node hkind hcs _ _ ih => exact .node hkind hcs (ih h')
  | wrapped _ ih => exact .wrapped (ih h')

theorem weaken (h : Follows false ns ns') : Follows true ns ns' := by
  generalize hb : false = b at h
  induction h with
  | nil => exact .nil
  | node hkind hcs _ _ ih => exact .node hkind hcs (ih hb)
  | wrapped _ _ => cases hb

theorem eq_nil (h : Follows b ns ns') (hns' : ns' = []) : ns = [] := by
  induction h with
  | nil => rfl
  | node => cases hns'
  | wrapped _ ih => cases ih hns'

/-- The second step is taken apart first: where it puts a list around a node, the same list fits around the node
before the first step. -/
theorem trans (h : Follows b ns ms) (h' : Follows b ms ks) : Follows b ns ks := by
  induction h' generalizing ns with
  | nil => obtain rfl := eq_nil h rfl; exact .nil
  | @node b id kind kind' o cs cs' ms ks hkind' hcs' hms' ihcs ihms =>
    generalize heq : Node.mk id kind o cs :: ms = targets at h
    induction h with
    | nil => cases heq
    | node hkind hcs hns _ _ =>
      cases heq
      refine .node (hkind.trans hkind') ?_ (ihms hns)
      have hlist := congrArg Kind.isInitializerList hkind.bare
      simp only [Kind.isInitializerList_bare] at hlist
      rw [← hlist] at hcs ⊢
      exact ihcs hcs
    | wrapped _ ih => exact .wrapped (ih hms' ihms heq)
  | @wrapped i o m ms ks hms' ih =>
    generalize hb : true = b at h
    generalize heq : m :: ms = targets at h
    induction h with
    | nil => cases heq
    | node hkind hcs hns _ _ =>
      cases heq
      subst hb
      exact .wrapped (ih (.node (.inl rfl) (.node hkind hcs .nil) hns))
    | wrapped _ ih' => exact .wrapped (ih' hb heq)

end Follows

namespace Node

mutual

/-- The numbers of the nodes of a tree. -/
def ids : Node → List Nat
  | .mk id _ _ cs => id :: idsAll cs

def idsAll : List Node → List Nat
  | [] => []
  | c :: cs => ids c ++ idsAll cs

end

theorem ids_sublist (ns : List Node) : (ns.map Node.id).Sublist (idsAll ns) := by
  induction ns with
  | nil => exact .slnil
  | cons n ns ih =>
    cases n
    exact (ih.trans (List.sublist_append_right _ _)).cons_cons _

end Node

namespace Node

mutual

theorem ids_bare (n : Node) : n.bare.ids = n.ids := by
  match n with
  | .mk id kind o cs => rw [bare, ids, ids, idsAll_bare cs]

theorem idsAll_bare (ns : List Node) : idsAll (bareAll ns) = idsAll ns := by
  match ns with
  | [] => rfl
  | n :: ns => rw [bareAll, idsAll, idsAll, ids_bare n, idsAll_bare ns]

end

theorem map_kind_bare (h : bareAll ns' = bareAll ns) : ns'.map (·.kind.bare) = ns.map (·.kind.bare) := by
  have hkinds : ∀ ms : List Node, (bareAll ms).map Node.kind = ms.map (·.kind.bare) := fun ms => by
    simp [bareAll_eq, Function.comp_def, kind_bare]
  rw [← hkinds, ← hkinds, h]

theorem ids_congr (h : n'.bare = n.bare) : n'.ids = n.ids := by rw [← ids_bare n', h, ids_bare]

/-- A tree of a whole program: every node admits its children, and the numbers of nodes are different. -/
structure IsProgram (n : Node) : Prop where
  root : n.kind = .program
  formed : n.formed = true
  nodup : n.ids.Nodup

theorem IsProgram.congr (hn : n.IsProgram) (h : n'.bare = n.bare) : n'.IsProgram := by
  refine ⟨?_, (formed_congr h).trans hn.formed, ids_congr h ▸ hn.nodup⟩
  have hkind : n'.kind.bare = n.kind.bare := by rw [← kind_bare, h, kind_bare]
  rw [hn.root] at hkind
  cases hk : n'.kind <;> simp [hk, Kind.bare] at hkind ⊢

theorem IsProgram.eq (hn : n.IsProgram) : ∃ id o cs, n = .mk id .program o cs := by
  obtain ⟨id, kind, o, cs⟩ := n
  obtain rfl : kind = .program := hn.root
  exact ⟨id, o, cs, rfl⟩

end Node

theorem Follows.map_id (h : Follows false ns ns') : ns'.map Node.id = ns.map Node.id := by
  generalize hb : false = b at h
  induction h with
  | nil => rfl
  | node _ _ _ _ ih => simp only [List.map_cons, Node.id, ih hb]
  | wrapped => cases hb

namespace Node

variable {P Q : Kind → Prop}

theorem eachAll_iff : EachAll P ns ↔ ∀ n ∈ ns, n.Each P := by
  induction ns with
  | nil => simp [EachAll]
  | cons n ns ih => simp [EachAll, ih]

mutual

theorem Each.mono {n : Node} (hP : n.Each P) (h : ∀ k, P k → Q k) : n.Each Q := by
  match n with
  | .mk id kind o cs => exact ⟨h kind hP.1, EachAll.mono hP.2 h⟩

theorem EachAll.mono {ns : List Node} (hP : EachAll P ns) (h : ∀ k, P k → Q k) : EachAll Q ns := by
  match ns with
  | [] => trivial
  | n :: ns => exact ⟨Each.mono hP.1 h, EachAll.mono hP.2 h⟩

end

mutual

theorem Each.and {n : Node} (hP : n.Each P) (hQ : n.Each Q) : n.Each fun k => P k ∧ Q k := by
  match n with
  | .mk id kind o cs => exact ⟨⟨hP.1, hQ.1⟩, EachAll.and hP.2 hQ.2⟩

theorem EachAll.and {ns : List Node} (hP : EachAll P ns) (hQ : EachAll Q ns) : EachAll (fun k => P k ∧ Q k) ns := by
  match ns with
  | [] => trivial
  | n :: ns => exact ⟨Each.and hP.1 hQ.1, EachAll.and hP.2 hQ.2⟩

end

end Node

namespace Follows

variable {ns ns' : List Node} {n' : Node}

theorem one {id : Nat} {kind : Kind} {o : Option ParseTree} {cs : List Node} (h : Follows false [.mk id kind o cs] [n']) :
    ∃ kind' cs', n' = .mk id kind' o cs' ∧ kind.Refines kind' ∧ Follows kind.isInitializerList cs cs' := by
  cases h with
  | node hkind hcs _ => exact ⟨_, _, rfl, hkind, hcs⟩

theorem mem (h : Follows false ns ns') (hn' : n' ∈ ns') : ∃ n ∈ ns, Follows false [n] [n'] := by
  generalize hb : false = b at h
  induction h with
  | nil => cases hn'
  | node hkind hcs _ _ ih =>
    obtain rfl | hn' := List.mem_cons.1 hn'
    · exact ⟨_, List.mem_cons_self, .node hkind hcs .nil⟩
    · obtain ⟨n, hn, hfollows⟩ := ih hn' hb
      exact ⟨n, List.mem_cons_of_mem _ hn, hfollows⟩
  | wrapped => cases hb

theorem kind_bare (h : Follows false [n] [n']) : n'.kind.bare = n.kind.bare := by
  obtain ⟨id, kind, o, cs⟩ := n
  obtain ⟨kind', cs', rfl, hkind, -⟩ := h.one
  exact hkind.bare

theorem map_kind_bare (h : Follows false ns ns') : ns'.map (·.kind.bare) = ns.map (·.kind.bare) := by
  generalize hb : false = b at h
  induction h with
  | nil => rfl
  | node hkind _ _ _ ih =>
    rw [List.map_cons, List.map_cons, ih hb]
    exact congrArg (· :: _) hkind.bare
  | wrapped => cases hb

end Follows

/-- What was well formed stays so: the lists that are put around elements are elements again. -/
theorem Follows.formed {b : Bool} (h : Follows b ns ns') (hf : Node.formedAll ns = true)
    (hb : b = true → ∀ n ∈ ns, n.kind.isElement = true) :
    Node.formedAll ns' = true ∧ (b = true → ∀ n ∈ ns', n.kind.isElement = true) := by
  induction h with
  | nil => exact ⟨rfl, hb⟩
  | @node b id kind kind' o cs cs' ns ns' hkind hfollows hrest ihcs ihns =>
    simp only [Node.formedAll, Node.formed, Bool.and_eq_true] at hf ⊢
    obtain ⟨⟨hadmits, hcs⟩, hns⟩ := hf
    obtain ⟨hns', helements⟩ := ihns hns fun htrue n hn => hb htrue n (List.mem_cons_of_mem _ hn)
    have hsame : kind'.isElement = kind.isElement := by
      rw [Kind.isElement, ← Kind.isExpression_bare, ← Kind.isInitializerList_bare, hkind.bare]
      simp [Kind.isElement]
    refine ⟨⟨?_, hns'⟩, fun htrue n hn => ?_⟩
    · cases hlist : kind.isInitializerList with
      | false =>
        rw [hlist] at hfollows ihcs
        have hkinds := hfollows.map_kind_bare
        refine ⟨?_, (ihcs hcs (by simp)).1⟩
        rw [← Kind.admits_bare, hkind.bare, List.map_map]
        have hkinds : List.map (Kind.bare ∘ Node.kind) cs' = (cs.map Node.kind).map Kind.bare := by
          rw [List.map_map]
          exact hkinds
        rw [hkinds, Kind.admits_bare]
        exact hadmits
      | true =>
        cases kind with
        | initializerList braces =>
          obtain rfl : kind' = .initializerList braces := by
            obtain rfl | ⟨called, callee, pieces, pieces', heq, -⟩ := hkind
            · rfl
            · cases heq
          have hall : ∀ c ∈ cs, c.kind.isElement = true := by simpa [Kind.admits] using hadmits
          obtain ⟨hcs', hall'⟩ := ihcs hcs fun _ => hall
          exact ⟨by simpa [Kind.admits] using hall' rfl, hcs'⟩
        | _ => cases hlist
    · obtain rfl | hn := List.mem_cons.1 hn
      · exact hsame.trans (hb htrue _ List.mem_cons_self)
      · exact helements htrue n hn
  | @wrapped i o n ns ns' _ ih =>
    obtain ⟨hn, hns⟩ := Bool.and_eq_true_iff.1 hf
    have helement := hb rfl n List.mem_cons_self
    refine ih ?_ fun _ m hm => ?_
    · simp [Node.formedAll, Node.formed, Kind.admits, helement, hn, hns]
    · obtain rfl | hm := List.mem_cons.1 hm
      · rfl
      · exact hb rfl m (List.mem_cons_of_mem n hm)

/-- What holds of the kinds before the check of types holds of those after it. -/
theorem Follows.each {P : Kind → Prop} {b : Bool} (h : Follows b ns ns') (hP : ∀ k k' : Kind, k.Refines k' → P k → P k')
    (hlist : P (.initializerList false)) (hns : Node.EachAll P ns) : Node.EachAll P ns' := by
  induction h with
  | nil => trivial
  | node hkind _ _ ihcs ihns => exact ⟨⟨hP _ _ hkind hns.1.1, ihcs hns.1.2⟩, ihns hns.2⟩
  | wrapped _ ih => exact ih ⟨⟨hlist, hns.1, trivial⟩, hns.2⟩

namespace Check

open Pass

theorem gives_wrap (list element : Node) : Gives (fun inner => inner.kind.isInitializerList = true ∧
    ∀ l', Follows false [inner] [l'] → Follows true [element] [l']) (wrap list element) := by
  unfold wrap
  split
  next h => exact .pure ⟨h, fun l' hl => hl.weaken⟩
  next h => exact .bind fun s => .bind fun _ => .pure ⟨rfl, fun l' hl => .wrapped hl.weaken⟩

theorem gives_checkFirst {check : Node → PassM Node} (h : ∀ n, Gives (fun n' => Follows true [n] [n']) (check n))
    (count : Nat) (elements : List Node) : Gives (Follows true elements) (checkFirst check count elements) := by
  induction elements generalizing count with
  | nil => cases count <;> exact .pure .nil
  | cons element rest ih =>
    cases count with
    | zero => exact .pure (.refl true _)
    | succ count =>
      unfold checkFirst
      exact (h element).andThen fun e he => (ih count).andThen fun es hes => .pure (he.append hes)

theorem gives_checkList (t : Target) (below level : Nat) (above : List Node) (list : Node)
    (hlist : list.kind.isInitializerList = true) :
    Gives (fun l' => Follows false [list] [l']) (checkList t below level above list) := by
  induction below generalizing level above list with
  | zero =>
    unfold checkList
    refine .bind fun extent => ?_
    dsimp only
    split
    · exact .bind fun _ => .bind fun _ => .pure (.refl_one false list)
    · exact .bind fun _ => .pure (.refl_one false list)
  | succ below ih =>
    have hinner : ∀ above element, Gives (fun l' => Follows true [element] [l']) (do
        let inner ← wrap list element
        checkList t below (level + 1) above inner) := fun above element =>
      (gives_wrap list element).andThen fun inner ⟨hinner, hl⟩ =>
        (ih (level + 1) above inner hinner).mono hl
    obtain ⟨id, kind, o, cs⟩ := list
    have hdone : ∀ covered, Gives (fun l' => Follows false [Node.mk id kind o cs] [l']) (do
        let children ← checkFirst (fun element => do
          let inner ← wrap (.mk id kind o cs) element
          checkList t below (level + 1) (.mk id kind o cs :: above) inner) covered cs
        return Node.mk id kind o children) := fun covered =>
      (gives_checkFirst (hinner _) covered cs).andThen fun cs' hcs => .pure (.node (.inl rfl) (hlist ▸ hcs) .nil)
    unfold checkList
    refine .bind fun extent => ?_
    dsimp only
    split
    · exact .bind fun _ => hdone _
    · exact hdone _

/-- If a declarator gets another initialiser, it is its old one after a check. -/
def Replaces (R : Node → Node → Prop) (n : Node) (r : Option Node) : Prop :=
  ∀ l', r = some l' → ∃ list, n.initializer? = some list ∧ R list l'

theorem replaces_checkDeclarator {R : Node → Node → Prop} (above : List Node) (head : DeclaratorHead)
    (hR : ∀ list, n.initializer? = some list → ∀ t below inside, Gives (R list) (checkList t below 1 inside list)) :
    Gives (Replaces R n) (checkDeclarator n above head) := by
  unfold checkDeclarator
  refine .bind fun type => ?_
  extract_lets name levels initial dimensions
  have hnone : Replaces R n none := fun l' hl => by cases hl
  have hinitial : ∀ u, Gives (Replaces R n) (initial u) := by
    intro u
    simp only [initial]
    split
    · exact .bind fun _ => .pure hnone
    next list heq =>
      have hlist : ∀ t below above, Gives (Replaces R n) (do
          let list ← checkList t below 1 above list
          return some list) := by
        intro t below above
        refine (hR list heq t below above).andThen fun l' hl => .pure ?_
        rintro _ ⟨⟩
        exact ⟨list, heq, hl⟩
      have hfits : ∀ fits t below inside, Gives (Replaces R n) (do
          if !fits then
            error list (n :: above) "invalid initializer"
            return none
          let list ← checkList t below 1 inside list
          return some list) := by
        intro fits t below inside
        split
        · exact .bind fun _ => .pure hnone
        · exact hlist t below inside
      refine .bind fun isArray => ?_
      split
      · split
        · refine .bind fun first => ?_
          split
          · exact .bind fun fits => hfits fits _ _ _
          · exact .bind fun fits => hfits fits _ _ _
        · exact hlist _ _ _
      · split
        · exact .bind fun _ => .pure hnone
        · split
          · exact .bind fun _ => .bind fun _ => .bind fun _ => .pure hnone
          · exact .bind fun _ => .bind fun _ => .pure hnone
  have hdimensions : ∀ u, Gives (Replaces R n) (dimensions u) := by
    intro u
    simp only [dimensions]
    split
    · refine .bind fun ok => ?_
      split
      · exact .pure hnone
      · exact hinitial ()
    · exact hinitial ()
  refine .bind fun isVoid => ?_
  split
  · exact .bind hdimensions
  · exact hdimensions ()

theorem mem_of_initializer? {list : Node} (h : n.initializer? = some list) :
    list ∈ n.children ∧ list.kind.isInitializerList = true := List.mem_filter.1 (List.mem_of_getLast? h)

theorem follows_checkDeclarator (n : Node) (above : List Node) (head : DeclaratorHead) :
    Gives (Replaces (fun list l' => Follows false [list] [l']) n) (checkDeclarator n above head) :=
  replaces_checkDeclarator above head fun list hlist t below inside =>
    gives_checkList t below 1 inside list (mem_of_initializer? hlist).2

theorem follows_replaceInitializer {list l' : Node} (hids : (n.children.map Node.id).Nodup)
    (hkind : n.kind.isInitializerList = false) (hlist : n.initializer? = some list) (h : Follows false [list] [l']) :
    Follows false [n] [replaceInitializer n l'] := by
  obtain ⟨id, kind, o, cs⟩ := n
  have hmem : list ∈ cs := (mem_of_initializer? hlist).1
  have hid : l'.id = list.id := by simpa using h.map_id
  have hone : ∀ c ∈ cs, Follows false [c] [if c.id == l'.id then l' else c] := by
    intro c hc
    split
    next heq =>
      rw [beq_iff_eq, hid] at heq
      rw [List.inj_on_of_nodup_map hids hc hmem heq]
      exact h
    next => exact .refl_one false c
  have hall : ∀ ds ⊆ cs, Follows false ds (ds.map fun c => if c.id == l'.id then l' else c) := by
    intro ds hds
    induction ds with
    | nil => exact .nil
    | cons c ds ih =>
      obtain ⟨hc, hds⟩ := List.cons_subset.1 hds
      exact (hone c hc).append (ih hds)
  exact .node (.inl rfl) (hkind ▸ hall cs (List.Subset.refl cs)) .nil

theorem follows_checkNode (n : Node) (above : List Node) (hids : (n.children.map Node.id).Nodup) :
    Gives (fun n' => Follows false [n] [n']) (checkNode n above) := by
  unfold checkNode
  have hsame : ∀ {α : Type} (m : PassM α), Gives (fun n' => Follows false [n] [n']) (do
      let _ ← m
      return n) := fun m => .bind fun _ => .pure (.refl_one false n)
  split
  case h_2 head hkind =>
    refine (follows_checkDeclarator n above head).andThen fun r hr => ?_
    cases r with
    | none => exact .pure (.refl_one false n)
    | some l' =>
      obtain ⟨list, hlist, hl⟩ := hr l' rfl
      exact .pure (follows_replaceInitializer hids (by rw [hkind]; rfl) hlist hl)
  case h_3 called callee pieces hkind =>
    have hcall : ∀ pieces', Follows false [n] [n.withKind (.call called callee pieces')] := by
      intro pieces'
      obtain ⟨id, kind, o, cs⟩ := n
      obtain rfl : kind = .call called callee pieces := hkind
      exact .node (.inr ⟨called, callee, pieces, pieces', rfl, rfl⟩) (.refl _ cs) .nil
    refine .bind fun r => ?_
    cases r <;> exact .pure (hcall _)
  case h_14 => exact .pure (.refl_one false n)
  all_goals exact hsame _

mutual

theorem follows_visit (above : List Node) (n : Node) (hids : n.ids.Nodup) :
    Gives (fun n' => Follows false [n] [n']) (visit above n) := by
  match n with
  | .mk id kind o cs =>
    have hsub : (Node.idsAll cs).Nodup := hids.of_cons
    have hrest : ∀ cs', Follows false cs cs' → Gives (fun n' => Follows false [Node.mk id kind o cs] [n']) (do
        if needsSoundChildren kind then
          if ← anyMarked cs' then return .mk id kind o cs'
        checkNode (.mk id kind o cs') above) := by
      intro cs' hcs
      have hchildren : Follows kind.isInitializerList cs cs' := by
        cases kind.isInitializerList
        · exact hcs
        · exact hcs.weaken
      have hnode : Follows false [Node.mk id kind o cs] [.mk id kind o cs'] := .node (.inl rfl) hchildren .nil
      have hcheck : Gives (fun n' => Follows false [Node.mk id kind o cs] [n']) (checkNode (.mk id kind o cs') above) := by
        refine (follows_checkNode (.mk id kind o cs') above ?_).mono fun n' hn => hnode.trans hn
        change (cs'.map Node.id).Nodup
        rw [hcs.map_id]
        exact hsub.sublist (Node.ids_sublist cs)
      split
      · refine .bind fun marked => ?_
        split
        · exact .pure hnode
        · exact hcheck
      · exact hcheck
    have hvisit := (follows_visitAll (.mk id kind o cs :: above) cs hsub).andThen hrest
    unfold visit
    by_cases hparts : hasNoParts kind = true
    · simp only [hparts, if_true]
      exact .pure (.refl_one false _)
    · by_cases hprogram : (kind != .program) = true
      · simp only [hparts, hprogram, Bool.false_eq_true, if_false, if_true]
        refine .bind fun marked => ?_
        cases marked
        · exact hvisit
        · exact .pure (.refl_one false _)
      · simp only [hparts, hprogram, Bool.false_eq_true, if_false]
        exact hvisit

theorem follows_visitAll (above ns : List Node) (hids : (Node.idsAll ns).Nodup) :
    Gives (Follows false ns) (visitAll above ns) := by
  match ns with
  | [] => rw [visitAll]; exact .pure .nil
  | n :: ns =>
    rw [visitAll]
    obtain ⟨hn, hns, -⟩ := List.nodup_append.1 hids
    exact (follows_visit above n hn).andThen fun m hm => (follows_visitAll above ns hns).andThen fun ms hms =>
      .pure (hm.append hms)

end

theorem follows_run (hids : n.ids.Nodup) (h : Runs (run n) s n' s') :
    Follows false [n] [n'] := follows_visit [] n hids s n' s' h

end Check

end MiniC
