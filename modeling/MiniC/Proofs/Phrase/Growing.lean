import MiniC.Proofs.Phrase.Reading
import MiniC.Proofs.Syntax.Formed
import MiniC.Proofs.Syntax.Walker

/-!
# What trees do to the node they stand below

A tree below an open node gives it children. Some rules also name it, type it or add layers to it: this does not change
the `core` of its kind. `Grows` says what is added to the kind and which children a walk gives, that they are well formed
and linked to the open node, and that nothing else changes. Walks that grow are composed (`Grows.append`), and there is one
lemma for rules that leave no node (`grows_through`) and one for those that make a node (`grows_node`). The form of a node,
its `Outline`, is what is left without numbers and origins: kinds and the order of children.
-/

namespace MiniC

inductive Outline where
  | mk (kind : Kind) (children : List Outline)

def Outline.kind : Outline → Kind
  | mk kind _ => kind

mutual

def Node.outline : Node → Outline
  | .mk _ kind _ children => .mk kind (outlineAll children)

def Node.outlineAll : List Node → List Outline
  | [] => []
  | n :: ns => n.outline :: outlineAll ns

end

theorem Node.outlineAll_eq (ns : List Node) : Node.outlineAll ns = ns.map Node.outline := by
  induction ns with
  | nil => rfl
  | cons n ns ih => rw [outlineAll, ih, List.map_cons]

theorem Node.kind_outline (n : Node) : n.outline.kind = n.kind := by cases n; rfl

namespace Kind

/-- A kind without what is added while its node is open; any name will do. -/
def core : Kind → Kind
  | function head => function { form := head.form, name := some "" }
  | parameter _ => parameter {}
  | declarator _ => declarator { name := some "" }
  | variableDeclaration _ => variableDeclaration {}
  | cast .. => cast {} []
  | call .. => call (some "") none none
  | name .. => name "" none none
  | k => k

/-- There is a name where one is needed. -/
def hasName : Kind → Bool
  | function head => head.name.isSome
  | declarator head => head.name.isSome
  | call called .. => called.isSome
  | _ => true

theorem length_le_of_admits {k : Kind} {ks : List Kind} {most : Nat} {message : String} (h : k.admits ks = true)
    (ha : Builder.arity k = some (most, message)) : ks.length ≤ most := by
  have hfits : ∀ ps ks, fits ps ks = true → ks.length = ps.length := by
    intro ps ks h
    fun_induction fits ps ks <;> simp_all
  cases k <;> cases ha <;> exact Nat.le_of_eq (hfits _ _ h)

theorem arity_core (k : Kind) : Builder.arity k.core = Builder.arity k := by cases k <;> rfl

theorem takesArrays_core (k : Kind) : k.core.takesArrays = k.takesArrays := by cases k <;> rfl

theorem isFor_core (k : Kind) : k.core.isFor = k.isFor := by cases k <;> rfl

end Kind

/-- What is added to the kind of an open node. -/
structure Tuning where
  map : Kind → Kind
  core_map : ∀ k, (map k).core = k.core
  hasName_map : ∀ k, k.hasName = true → (map k).hasName = true

namespace Tuning

/-- Nothing is added. -/
def none : Tuning := ⟨id, fun _ => rfl, fun _ h => h⟩

def andThen (f g : Tuning) : Tuning :=
  ⟨g.map ∘ f.map, fun k => (g.core_map _).trans (f.core_map k), fun k h => g.hasName_map _ (f.hasName_map k h)⟩

def named (x : String) : Tuning :=
  ⟨Kind.setName x, fun k => by cases k <;> rfl, fun k _ => by cases k <;> rfl⟩

def specified (f : Specifiers → Specifiers) : Tuning :=
  ⟨Kind.mapSpecifiers f, fun k => by cases k <;> rfl, fun k h => by cases k <;> exact h⟩

def layered (layers : List Layer) : Tuning :=
  ⟨fun k => (k.addLayers? layers).getD k, fun k => by cases k <;> rfl, fun k h => by cases k <;> exact h⟩

def pointed (layer : Layer) : Tuning where
  map k := if k.takesPointers then (k.addLayers? [layer]).getD k else k
  core_map k := by cases k <;> rfl
  hasName_map k h := by cases k <;> exact h

variable (f : Tuning) (k : Kind)

theorem arity_map : Builder.arity (f.map k) = Builder.arity k := by
  rw [← Kind.arity_core, f.core_map, Kind.arity_core]

theorem takesArrays_map : (f.map k).takesArrays = k.takesArrays := by
  rw [← Kind.takesArrays_core, f.core_map, Kind.takesArrays_core]

theorem isFor_map : (f.map k).isFor = k.isFor := by
  rw [← Kind.isFor_core, f.core_map, Kind.isFor_core]

end Tuning

namespace Open

def append (ns : List Node) : Open → Open
  | node n => node { n with children := n.children ++ ns.toArray }
  | part p cs => part p (cs ++ ns.toArray)

def mapKind (f : Kind → Kind) : Open → Open
  | node n => node { n with kind := f n.kind }
  | part p cs => part p cs

def Room (count : Nat) : Open → Prop
  | node n => ∀ most message, Builder.arity n.kind = some (most, message) → n.children.size + count ≤ most
  | part .. => True

def takesArrays : Open → Bool
  | node n => n.kind.takesArrays
  | part .. => false

variable {o : Open} {ns ns' : List Node} {count count' : Nat}

theorem push_eq_append (n : Node) (o : Open) : o.push n = o.append [n] := by cases o <;> rfl

@[simp] theorem append_nil (o : Open) : o.append [] = o := by cases o <;> simp [append]

@[simp] theorem append_append : (o.append ns).append ns' = o.append (ns ++ ns') := by cases o <;> simp [append]

@[simp] theorem mapKind_append (f : Kind → Kind) : (o.append ns).mapKind f = (o.mapKind f).append ns := by cases o <;> rfl

@[simp] theorem id?_append : (o.append ns).id? = o.id? := by cases o <;> rfl

@[simp] theorem id?_mapKind (f : Kind → Kind) : (o.mapKind f).id? = o.id? := by cases o <;> rfl

@[simp] theorem takesArrays_append : (o.append ns).takesArrays = o.takesArrays := by cases o <;> rfl

@[simp] theorem takesArrays_mapKind (f : Tuning) : (o.mapKind f.map).takesArrays = o.takesArrays := by
  cases o with
  | node n => exact f.takesArrays_map n.kind
  | part => rfl

theorem room_append : (o.append ns).Room count ↔ o.Room (ns.length + count) := by
  cases o <;> simp [append, Room, Nat.add_assoc]

theorem room_mapKind (f : Tuning) : (o.mapKind f.map).Room count ↔ o.Room count := by
  cases o <;> simp [mapKind, Room, f.arity_map]

theorem Room.mono (h : o.Room count) (hle : count' ≤ count) : o.Room count' := by
  cases o with
  | node n =>
    intro most message harity
    have := h most message harity
    omega
  | part => trivial

end Open

namespace Builder

variable {b : Builder} {o : Open} {rest : List Open} {kind : Kind} {count : Nat} {n : OpenNode}

theorem mapTop_eq (hb : b.opened = o :: rest) (f : Kind → Kind) : b.mapTop f = { b with opened := o.mapKind f :: rest } := by
  cases o with
  | node n => simp [mapTop, hb, Open.mapKind]
  | part p cs =>
    simp only [mapTop, hb, Open.mapKind]
    rw [← hb]

theorem mapTop_none (b : Builder) : b.mapTop Tuning.none.map = b := by
  obtain ⟨next, _ | ⟨o, rest⟩, root⟩ := b
  · rfl
  · cases o <;> rfl

theorem checkRoom_of_room (h : ∀ most message, arity kind = some (most, message) → count + 1 ≤ most) :
    checkRoom kind count = .ok () := by
  unfold checkRoom
  split
  · rename_i most message harity
    have hle := h most message harity
    rw [if_pos (by omega)]
    rfl
  · rfl

theorem openNode_eq {origin : Option ParseTree} (hb : b.opened = o :: rest) (hroom : o.Room 1) :
    b.openNode (pure kind) origin =
      .ok ({ b with next := b.next + 1, opened := .node { id := b.next, kind, origin } :: o :: rest }, .close) := by
  cases o with
  | node n =>
    have hcheck := checkRoom_of_room hroom
    simp [openNode, Builder.top, hb, hcheck, bind, Except.bind, pure, Except.pure]
  | part p cs => simp [openNode, Builder.top, hb, bind, Except.bind, pure, Except.pure]

theorem leave_close (hb : b.opened = .node n :: o :: rest) :
    b.leave .close = .ok { b with opened := o.append [n.close] :: rest } := by
  rw [leave, close, hb, ← Open.push_eq_append]
  rfl

end Builder

namespace Phrase

open Builder

/-- Nodes that were made from a number on, below something that they are linked to, and the links before and after. -/
structure Below (start : Nat) (old : Nat → Option Nat) (above : Option Nat) (next : Nat) (parents : Nat → Option Nat)
    (ns : List Node) : Prop where
  le : start ≤ next
  kept : ∀ i < start, parents i = old i
  formed : ∀ n ∈ ns, n.formed = true
  links : ∀ n ∈ ns, parents n.id = above
  linked : ∀ n ∈ ns, n.Linked parents
  new : ∀ n ∈ ns, ∀ m ∈ n.parts, start ≤ m.id ∧ m.id < next
  nodup : (Node.idsAll ns).Nodup

section
variable {start next next' : Nat} {old parents parents' : Nat → Option Nat} {above : Option Nat} {ns ns' : List Node}

theorem below_nil : Below start old above start old [] := by
  constructor <;> simp [Node.idsAll]

theorem Below.new_ids (h : Below start old above next parents ns) : ∀ i ∈ Node.idsAll ns, start ≤ i ∧ i < next := by
  intro i hi
  rw [← Node.map_id_partsAll] at hi
  obtain ⟨m, hm, rfl⟩ := List.mem_map.1 hi
  obtain ⟨n, hn, hm⟩ := Node.mem_partsAll.1 hm
  exact h.new n hn m hm

theorem Below.append (h : Below start old above next parents ns) (h' : Below next parents above next' parents' ns') :
    Below start old above next' parents' (ns ++ ns') := by
  have hkept : ∀ n ∈ ns, ∀ m ∈ n.parts, parents' m.id = parents m.id := fun n hn m hm => h'.kept _ (h.new n hn m hm).2
  constructor
  · exact Nat.le_trans h.le h'.le
  · exact fun i hi => (h'.kept i (Nat.lt_of_lt_of_le hi h.le)).trans (h.kept i hi)
  · exact List.forall_mem_append.2 ⟨h.formed, h'.formed⟩
  · exact List.forall_mem_append.2 ⟨fun n hn => (hkept n hn n n.mem_parts_self).trans (h.links n hn), h'.links⟩
  · have hlinked : ∀ n ∈ ns, n.Linked parents' := fun n hn => (h.linked n hn).mono fun m hm i hi => (hkept n hn m hm).trans hi
    exact List.forall_mem_append.2 ⟨hlinked, h'.linked⟩
  · refine List.forall_mem_append.2 ⟨fun n hn m hm => ?_, fun n hn m hm => ?_⟩
    · have := h.new n hn m hm
      have := h'.le
      omega
    · have := h'.new n hn m hm
      have := h.le
      omega
  · rw [Node.idsAll_append]
    refine h.nodup.append h'.nodup fun i hi hi' => ?_
    have := (h.new_ids i hi).2
    have := (h'.new_ids i hi').1
    omega

theorem Below.drop {above' : Option Nat} (h : Below start old above next parents ns) : Below start old above' next parents [] :=
  ⟨h.le, h.kept, by simp, by simp, by simp, by simp, .nil⟩

/-- A node with the nodes that were made below it. -/
theorem Below.node {kind : Kind} {origin : Option ParseTree}
    (h : Below (start + 1) (Function.update old start above) (some start) next parents ns)
    (hadmits : kind.admits (ns.map Node.kind) = true) : Below start old above next parents [.mk start kind origin ns] := by
  have hle := h.le
  constructor
  · omega
  · intro i hi
    rw [h.kept i (by omega), Function.update_of_ne (by omega)]
  · rw [List.forall_mem_singleton, Node.formed, Node.formedAll_eq, hadmits]
    exact List.all_eq_true.2 h.formed
  · refine List.forall_mem_singleton.2 ?_
    show parents start = above
    rw [h.kept start (by omega), Function.update_self]
  · exact List.forall_mem_singleton.2 (Node.linked_iff.2 fun c hc => ⟨h.links c hc, h.linked c hc⟩)
  · refine List.forall_mem_singleton.2 fun m hm => ?_
    obtain rfl | ⟨c, hc, hm⟩ := Node.mem_parts.1 hm
    · exact ⟨Nat.le_refl _, hle⟩
    · have := h.new c hc m hm
      omega
  · rw [Node.idsAll, Node.idsAll, List.append_nil, Node.ids, List.nodup_cons]
    exact ⟨fun hi => Nat.not_succ_le_self start (h.new_ids start hi).1, h.nodup⟩

end

/-- Below an open node with room, and which takes arrays where this is needed, a walk adds to the kind and gives children. -/
def Grows (run : Walker → Except Fault Walker) (fit : Bool) (f : Tuning) (os : List Outline) : Prop :=
  ∀ (s : Walker) (o : Open) (rest : List Open), s.builder.opened = o :: rest → o.Room os.length →
    (fit = true → o.takesArrays = true) →
    ∃ next ns parents, run s =
        .ok { s with builder := { s.builder with next, opened := (o.mapKind f.map).append ns :: rest }, parents } ∧
      ns.map Node.outline = os ∧ Below s.builder.next s.parents o.id? next parents ns

variable {run run' : Walker → Except Fault Walker} {fit : Bool} {f g : Tuning} {os os' : List Outline} {o1 : Outline}
  {info : RuleInfo} {t : ParseTree} {ts : List ParseTree} {l : Lexeme}

theorem grows_nil : Grows (·.walkAll []) fit .none [] := by
  intro s o rest hs _ _
  refine ⟨s.builder.next, [], s.parents, ?_, rfl, below_nil⟩
  have ho : o.mapKind id = o := by cases o <;> rfl
  rw [Open.append_nil, Tuning.none, ho, ← hs]
  rfl

theorem Grows.mono {fit' : Bool} (h : Grows run fit f os) (hfit : fit = true → fit' = true) : Grows run fit' f os :=
  fun s o rest hs hroom ho => h s o rest hs hroom fun hf => ho (hfit hf)

theorem Grows.append (h : Grows run fit f os) (h' : Grows run' fit g os') :
    Grows (fun s => run s >>= run') fit (f.andThen g) (os ++ os') := by
  intro s o rest hs hroom hfit
  rw [List.length_append] at hroom
  obtain ⟨next, ns, parents, hrun, rfl, hbelow⟩ := h s o rest hs (hroom.mono (by omega)) hfit
  have hroom' : ((o.mapKind f.map).append ns).Room os'.length :=
    Open.room_append.2 ((Open.room_mapKind f).2 (by simpa using hroom))
  obtain ⟨next', ns', parents', hrun', rfl, hbelow'⟩ := h'
    { s with builder := { s.builder with next, opened := (o.mapKind f.map).append ns :: rest }, parents } _ rest rfl hroom'
    (by simpa using hfit)
  have ho : (((o.mapKind f.map).append ns).mapKind g.map).append ns' = (o.mapKind (f.andThen g).map).append (ns ++ ns') := by
    rw [Open.mapKind_append, Open.append_append]
    cases o <;> rfl
  rw [ho] at hrun'
  simp only [Open.id?_append, Open.id?_mapKind] at hbelow'
  refine ⟨next', ns ++ ns', parents', ?_, by simp, hbelow.append hbelow'⟩
  simp only [hrun]
  exact hrun'

/-- A leaf leaves no trace. -/
theorem Grows.leaf (ht : Spells t l) (hs : Grows (·.walkAll ts) fit f os) : Grows (·.walkAll (t :: ts)) fit f os := by
  obtain ⟨token, rfl, -⟩ := ht
  exact hs

theorem Grows.cons (h : Grows (·.walk t) fit f os) (hs : Grows (·.walkAll ts) fit g os') :
    Grows (·.walkAll (t :: ts)) fit (f.andThen g) (os ++ os') := h.append hs

theorem Grows.one (h : Grows (·.walk t) fit .none [o1]) (hs : Grows (·.walkAll ts) fit g os) :
    Grows (·.walkAll (t :: ts)) fit g (o1 :: os) := h.append hs

theorem Grows.join {ts' : List ParseTree} (h : Grows (·.walkAll ts) fit f os) (h' : Grows (·.walkAll ts') fit g os') :
    Grows (·.walkAll (ts ++ ts')) fit (f.andThen g) (os ++ os') := by
  have hjoin : ∀ (ts : List ParseTree) (s : Walker), s.walkAll (ts ++ ts') = s.walkAll ts >>= (·.walkAll ts') := by
    intro ts
    induction ts with
    | nil => exact fun s => rfl
    | cons t ts ih => exact fun s => by simp only [List.cons_append, Walker.walkAll, ih, bind_assoc]
  have happend := h.append h'
  simpa only [hjoin] using happend

/-- A rule is entered, its trees are walked, and what was noted at its start is done. -/
theorem walk_of_enter {s : Walker} {b b' b'' : Builder} {atEnd : Leave} {parents parents' : Nat → Option Nat}
    (henter : s.builder.enter (Form.ofRule info.rule) (.node info ts) = .ok (b, atEnd))
    (hparents : (if b.next = s.builder.next then s.parents
      else Function.update s.parents s.builder.next (s.builder.opened.head?.bind Open.id?)) = parents)
    (hrun : Walker.walkAll ⟨b, atEnd :: s.pending, parents⟩ ts = .ok ⟨b', atEnd :: s.pending, parents'⟩)
    (hleave : b'.leave atEnd = .ok b'') :
    s.walk (.node info ts) = .ok ⟨b'', s.pending, Walker.relink ⟨b', atEnd :: s.pending, parents'⟩ atEnd⟩ := by
  subst hparents
  have hform : Form.ofTree (.node info ts) = Form.ofRule info.rule := rfl
  rw [Walker.walk, Walker.enter, hform, henter]
  show (do let s ← Walker.walkAll ⟨b, atEnd :: s.pending, _⟩ ts; s.exit) = _
  rw [hrun]
  show (do let builder ← b'.leave atEnd; _) = _
  rw [hleave]
  rfl

/-- A rule that makes no node of its own. -/
theorem grows_through
    (henter : ∀ (b : Builder) (o : Open) (rest : List Open), b.opened = o :: rest → (fit = true → o.takesArrays = true) →
      b.enter (Form.ofRule info.rule) (.node info ts) = .ok (b.mapTop f.map, .nothing))
    (hs : Grows (·.walkAll ts) fit g os) : Grows (·.walk (.node info ts)) fit (f.andThen g) os := by
  intro s o rest hopened hroom hfit
  have henter' := henter s.builder o rest hopened hfit
  rw [mapTop_eq hopened] at henter'
  obtain ⟨next, ns, parents, hrun, hns, hbelow⟩ := hs
    ⟨{ s.builder with opened := o.mapKind f.map :: rest }, .nothing :: s.pending, s.parents⟩ _ rest rfl
    ((Open.room_mapKind f).2 hroom) (by simpa using hfit)
  have ho : (o.mapKind f.map).mapKind g.map = o.mapKind (f.andThen g).map := by cases o <;> rfl
  rw [ho] at hrun
  rw [Open.id?_mapKind] at hbelow
  exact ⟨next, ns, parents, walk_of_enter henter' (if_pos rfl) hrun rfl, hns, hbelow⟩

/-- A rule that makes a node, which it may close without its children. -/
theorem grows_node (bare : Bool) (kind : Kind) (origin : Option ParseTree)
    (henter : ∀ (b : Builder) (o : Open) (rest : List Open), b.opened = o :: rest → o.Room 1 → (fit = true → o.takesArrays = true) →
      b.enter (Form.ofRule info.rule) (.node info ts) = .ok ({ b with
        next := b.next + 1, opened := .node { id := b.next, kind, origin } :: o :: rest }, if bare then .closeBare else .close))
    (hs : Grows (·.walkAll ts) kind.takesArrays f os)
    (hroom : ∀ most message, arity kind = some (most, message) → os.length ≤ most) (hfor : kind.isFor = false)
    (hadmits : (f.map kind).admits ((if bare then [] else os).map Outline.kind) = true) :
    Grows (·.walk (.node info ts)) fit .none [.mk (f.map kind) (if bare then [] else os)] := by
  intro s o rest hopened hone hfit
  have henter' := henter s.builder o rest hopened hone hfit
  let n : OpenNode := { id := s.builder.next, kind, origin }
  obtain ⟨next, ns, parents, hrun, rfl, hbelow⟩ := hs
    ⟨{ s.builder with next := s.builder.next + 1, opened := .node n :: o :: rest }, (if bare then .closeBare else .close) :: s.pending,
      Function.update s.parents s.builder.next o.id?⟩ (.node n) (o :: rest) rfl (by simpa [n, Open.Room] using hroom) (by simp [Open.takesArrays, n])
  have hclose : ∀ (k : Kind) (cs : Array Node), k.isFor = false →
      OpenNode.close { n with kind := k, children := cs } = .mk s.builder.next k origin cs.toList := by
    intro k cs hk
    cases k with
    | forLoop => cases hk
    | _ => rfl
  have hfor' := (f.isFor_map kind).trans hfor
  let kept := if bare then [] else ns
  have hkept : Below (s.builder.next + 1) (Function.update s.parents s.builder.next o.id?) (some s.builder.next) next parents kept := by
    cases bare with
    | true => exact hbelow.drop
    | false => exact hbelow
  have hkinds : kept.map Node.kind = (if bare then [] else ns.map Node.outline).map Outline.kind := by
    cases bare <;> simp [kept, Node.kind_outline]
  have ho : o.mapKind Tuning.none.map = o := by cases o <;> rfl
  refine ⟨next, [.mk s.builder.next (f.map kind) origin kept], parents, ?_, ?_, hkept.node (hkinds ▸ hadmits)⟩
  · have hparents : (if s.builder.next + 1 = s.builder.next then s.parents
        else Function.update s.parents s.builder.next (s.builder.opened.head?.bind Open.id?)) =
        Function.update s.parents s.builder.next o.id? := by
      rw [hopened]
      exact if_neg (Nat.succ_ne_self _)
    rw [ho]
    cases bare with
    | false =>
      refine walk_of_enter henter' hparents hrun ((leave_close rfl).trans ?_)
      rw [hclose _ _ hfor', Array.empty_append]
      rfl
    | true =>
      refine walk_of_enter henter' hparents hrun ?_
      show _ = Except.ok { s.builder with next, opened := o.append [.mk s.builder.next (f.map kind) origin (#[] : Array Node).toList] :: rest }
      rw [← hclose _ _ hfor', ← Open.push_eq_append]
      rfl
  · cases bare <;> simp [kept, Node.outline, Node.outlineAll_eq]

/-- Below what is open, a rule opens a node. -/
def OpensNode (fit : Bool) (form : Form) (t : ParseTree) (kind : Kind) (origin : Option ParseTree) : Prop :=
  ∀ (b : Builder) (o : Open) (rest : List Open), b.opened = o :: rest → (fit = true → o.takesArrays = true) →
    b.enter form t = b.openNode (pure kind) origin

/-- A rule that makes a node with its children. -/
theorem grows_made (kind : Kind) {kind' : Kind} {origin : Option ParseTree}
    (henter : OpensNode fit (Form.ofRule info.rule) (.node info ts) kind origin)
    (hs : Grows (·.walkAll ts) kind.takesArrays f os) (hkind : f.map kind = kind') (hfor : kind.isFor = false)
    (hadmits : kind'.admits (os.map Outline.kind) = true) : Grows (·.walk (.node info ts)) fit .none [.mk kind' os] := by
  subst hkind
  refine grows_node false kind origin (fun b o rest hb hroom hfit => ?_) hs (fun most message ha => ?_) hfor hadmits
  · rw [henter b o rest hb hfit, openNode_eq hb hroom]
    rfl
  · simpa using Kind.length_le_of_admits hadmits ((f.arity_map kind).trans ha)

end Phrase

end MiniC
