import MiniC.Proofs.Phrase.RoundTrip

/-!
# Trees of programs

`Rule.gain` says what the trees of a rule give to the node that they stand below, in which order and of which kinds. It
is checked against the alternatives of each rule, and so every parse tree of a program is walked to its end, unless a
literal has no value, and builds a tree in which each node has the children that belong to it.
-/

namespace MiniC

namespace Kind

/-- One kind for all that stand in the same places. -/
def rep (k : Kind) : Kind :=
  if k.isExpression then comma else match k with
    | includeFile .. | function _ => includeFile true ""
    | parameter _ => parameter {}
    | initializerList _ => initializerList true
    | returnStmt | breakStmt | continueStmt | ifStmt | forLoop .. | whileLoop | doWhile => breakStmt
    | variableDeclaration _ => variableDeclaration {}
    | declarator _ => declarator {}
    | k => k

end Kind

namespace Phrase

open Builder

/-- What the trees of a row of items give to the node that they stand below: children of some kinds one after the other, or
any number of children of these kinds. -/
structure Gain where
  exact : Bool := true
  kinds : List Kind := []
  /-- They stand only below what takes arrays. -/
  fit : Bool := false
  named : Bool := false
  /-- There is no part of a header among them. -/
  plain : Bool := true

namespace Gain

def holds (g : Gain) (ks : List Kind) : Prop := if g.exact then ks = g.kinds else ks ⊆ g.kinds

def append (g h : Gain) : Gain :=
  ⟨g.exact && h.exact, g.kinds ++ h.kinds, g.fit || h.fit, g.named || h.named, g.plain && h.plain⟩

def rounds (gs : List Gain) : Gain :=
  ⟨(gs.flatMap kinds).isEmpty, gs.flatMap kinds, gs.any fit, false, gs.all plain⟩

/-- What gives the one gives the other. -/
def le (g h : Gain) : Bool :=
  g.plain && g.exact == h.exact && (if g.exact then g.kinds == h.kinds else g.kinds.all (· ∈ h.kinds)) && (h.fit || !g.fit) &&
    (g.named || !h.named)

variable {g h : Gain} {gs : List Gain} {ks ks' : List Kind}

theorem holds.subset (h : g.holds ks) : ks ⊆ g.kinds := by
  unfold holds at h
  split at h
  · exact h ▸ List.Subset.refl _
  · exact h

theorem holds.append (hg : g.holds ks) (hh : h.holds ks') : (g.append h).holds (ks ++ ks') := by
  have hsubset : ks ++ ks' ⊆ g.kinds ++ h.kinds :=
    List.append_subset.2 ⟨List.subset_append_of_subset_left _ hg.subset, List.subset_append_of_subset_right _ hh.subset⟩
  unfold holds Gain.append at *
  cases hge : g.exact <;> cases hhe : h.exact <;> simp_all

/-- Another round. -/
theorem holds.again (hg : g ∈ gs) (hks : g.holds ks) (hrest : ((rounds gs).append h).holds ks') :
    ((rounds gs).append h).holds (ks ++ ks') := by
  have hsubset : ks ⊆ gs.flatMap kinds := fun k hk => List.mem_flatMap.2 ⟨g, hg, hks.subset hk⟩
  cases hempty : (gs.flatMap kinds).isEmpty with
  | true =>
    rw [List.isEmpty_iff.1 hempty] at hsubset
    rwa [List.subset_nil.1 hsubset, List.nil_append]
  | false =>
    have hinexact : ((rounds gs).append h).exact = false := by simp [rounds, Gain.append, hempty]
    simp only [holds, hinexact, Bool.false_eq_true, if_false] at hrest ⊢
    exact List.append_subset.2 ⟨List.subset_append_of_subset_left _ hsubset, hrest⟩

theorem holds.le (hks : g.holds ks) (hle : g.le h = true) : h.holds ks := by
  unfold Gain.le at hle
  unfold holds at hks ⊢
  cases hge : g.exact <;> simp_all [List.subset_def]

/-- A walk gives this. -/
def Walks (g : Gain) (run : Walker → Except Fault Walker) : Prop :=
  ∃ f os, Grows run g.fit f os ∧ g.holds (os.map (·.kind.rep)) ∧ (g.named = true → ∀ k, (f.map k).hasName = true)

section
variable {run : Walker → Except Fault Walker} {ts ts' : List ParseTree} {t : ParseTree}

theorem Walks.append (hg : g.Walks (·.walkAll ts)) (hh : h.Walks (·.walkAll ts')) :
    (g.append h).Walks (·.walkAll (ts ++ ts')) := by
  obtain ⟨f, os, hgrows, hholds, hnamed⟩ := hg
  obtain ⟨f', os', hgrows', hholds', hnamed'⟩ := hh
  have hfit : (g.fit = true → (g.append h).fit = true) ∧ (h.fit = true → (g.append h).fit = true) := by
    simp +contextual [Gain.append]
  refine ⟨f.andThen f', os ++ os', (hgrows.mono hfit.1).join (hgrows'.mono hfit.2), ?_, fun hn k => ?_⟩
  · rw [List.map_append]
    exact hholds.append hholds'
  · obtain hn | hn : g.named = true ∨ h.named = true := by simpa [Gain.append] using hn
    · exact f'.hasName_map _ (hnamed hn k)
    · exact hnamed' hn _

/-- One more round does not change the sum. -/
theorem Walks.again (hmem : g ∈ gs) (hg : g.Walks (·.walkAll ts)) (hh : ((rounds gs).append h).Walks (·.walkAll ts')) :
    ((rounds gs).append h).Walks (·.walkAll (ts ++ ts')) := by
  obtain ⟨f, os, hgrows, hholds, hnamed⟩ := hg
  obtain ⟨f', os', hgrows', hholds', hnamed'⟩ := hh
  have hfit : g.fit = true → ((rounds gs).append h).fit = true := fun hf =>
    Bool.or_eq_true_iff.2 (.inl (List.any_eq_true.2 ⟨g, hmem, hf⟩))
  refine ⟨f.andThen f', os ++ os', (hgrows.mono hfit).join hgrows', ?_, fun hn k => hnamed' hn _⟩
  rw [List.map_append]
  exact hholds.again hmem hholds'

theorem Walks.single (hg : g.Walks (·.walk t)) : g.Walks (·.walkAll [t]) := by
  obtain ⟨f, os, hgrows, hrest⟩ := hg
  have hone := hgrows.cons grows_nil
  rw [List.append_nil] at hone
  exact ⟨f, os, hone, hrest⟩

end

end Gain

/-! ### The gain of a rule -/

/-- What the trees of a rule give. -/
def Rule.gain : Rule → Gain
  | level _ | cast | call | name | float | integer | character | string => { kinds := [.comma] }
  | arguments => { kinds := [.arguments] }
  | identifier => { named := true }
  | specifier | typeWord | constWord | pointerPart => {}
  | inclusion | stdInclude | customInclude | functionDeclaration | functionDefinition => { kinds := [.includeFile true ""] }
  | parameters => { kinds := [.parameters] }
  | parameter => { kinds := [.parameter {}] }
  | parameterDeclarator | parameterShape => { exact := false, kinds := [.arrayPart], fit := true }
  | declaratorShape => { exact := false, kinds := [.arrayPart], fit := true, named := true }
  | arrayPart => { kinds := [.arrayPart], fit := true }
  | statements => { kinds := [.statements] }
  | statement => { kinds := [.statement] }
  | elseCond => { kinds := [.elseBranch] }
  | ifCond | whileCond | doWhileCond | forLoop | returnStmt | breakStmt | continueStmt => { kinds := [.breakStmt] }
  | variableDeclaration => { kinds := [.variableDeclaration {}] }
  | declarator => { kinds := [.declarator {}] }
  | initializer _ => { kinds := [.initializerList true] }
  | program | header _ => { plain := false }

mutual

/-- What the trees of an item may give, one gain for each alternative. -/
def Item.gains : Item → List Gain
  | .token _ => [{}]
  | .rule r => [r.gain]
  | .many items => [.rounds (rowGains items)]
  | .either rows => rowsGains rows

def rowGains : List Item → List Gain
  | [] => [{}]
  | i :: items => i.gains.flatMap fun g => (rowGains items).map g.append

def rowsGains : List (List Item) → List Gain
  | [] => []
  | row :: rows => rowGains row ++ rowsGains rows

end

/-- What may stand in a part of the header of a loop. -/
def partSort : Part → Kind → Bool
  | .initializer => Kind.isFirst
  | _ => Kind.isExpression

/-- Below an open loop, a walk fills a part of its header. -/
def FillsPart (p : Part) (t : ParseTree) : Prop :=
  ∃ form : Option Outline, (∀ o ∈ form, partSort p o.kind = true) ∧
    ∀ (s : Walker) (n : OpenNode) (rest : List Open), s.builder.opened = .node n :: rest → n.kind.isFor = true →
      n.found.get p = #[] → n.header.get p = none →
      ∃ (c : Option Node) (next : Nat) (parents : Nat → Option Nat),
        s.walk t = .ok { s with parents, builder := { s.builder with
          next, opened := .node { n with found := n.found.set p c.toArray, header := n.header.set p c } :: rest } } ∧
        c.map Node.outline = form ∧ Below s.builder.next s.parents (some n.id) next parents c.toList

/-- A walk builds a program: every rule is left, only the root is left open, with all that is below it, and each link names
the node that holds the other. -/
def BuildsProgram (t : ParseTree) : Prop :=
  ∃ (w : Walker) (n : OpenNode), Walker.walk {} t = .ok w ∧ w.pending = [] ∧ w.builder.opened = [.node n] ∧
    Node.ofParseTree t = .ok n.close ∧ n.close.IsProgram ∧ n.close.Linked w.parents

/-- What the tree of a rule does. -/
def Acts : Rule → ParseTree → Prop
  | .header p, t => FillsPart p t
  | .program, t => BuildsProgram t
  | r, t => r.gain.Walks (·.walk t)

/-- If literals have values, the tree of a rule acts. -/
def Gives (r : Rule) (t : ParseTree) (ls : List Lexeme) : Prop := (∀ x ∈ ls, x.Converts) → Acts r t

def RowGives (items : List Item) (ts : List ParseTree) : Prop :=
  ∃ g ∈ rowGains items, g.plain = true → g.Walks (·.walkAll ts)

section
variable {items : List Item} {ts ts' : List ParseTree} {ls : List Lexeme} {i : Item} {g : Gain}

theorem RowGives.cons (ts : List ParseTree) (hi : g ∈ i.gains) (hg : g.plain = true → g.Walks (·.walkAll ts))
    (hrest : RowGives items ts') : RowGives (i :: items) (ts ++ ts') := by
  obtain ⟨h, hh, hwalks⟩ := hrest
  refine ⟨g.append h, List.mem_flatMap.2 ⟨g, hi, List.mem_map_of_mem hh⟩, fun hp => ?_⟩
  obtain ⟨hp, hp'⟩ := Bool.and_eq_true_iff.1 hp
  exact (hg hp).append (hwalks hp')

variable {r : Rule} {info : RuleInfo} {f : Tuning}

theorem Below.relink {start next i : Nat} {old parents : Nat → Option Nat} {m : Node} (h : Below start old none next parents [m]) :
    Below start old (some i) next (Function.update parents m.id (some i)) [m] := by
  have hnew := h.new m (List.mem_singleton_self m) m m.mem_parts_self
  have hnone : parents m.id = none := h.links m (List.mem_singleton_self m)
  constructor
  · exact h.le
  · intro j hj
    rw [Function.update_of_ne (by omega), h.kept j hj]
  · exact h.formed
  · exact List.forall_mem_singleton.2 (Function.update_self ..)
  · refine List.forall_mem_singleton.2 ((h.linked m (List.mem_singleton_self m)).mono fun x _ j hj => ?_)
    have hne : x.id ≠ m.id := fun heq => by simp [heq, hnone] at hj
    rw [Function.update_of_ne hne, hj]
  · exact h.new
  · exact h.nodup

end

/-! ### Programs -/

/-- Nothing is built from a tree. -/
def Refused (t : ParseTree) : Prop := ∀ b : Builder, ∃ fault, b.walk t = .error fault

theorem Refused.node {info : RuleInfo} {t : ParseTree} {ts : List ParseTree} (h : Refused t) (ht : t ∈ ts) :
    Refused (.node info ts) := by
  have hall : ∀ b : Builder, ∃ fault, b.walkAll ts = .error fault := by
    induction ts with
    | nil => cases ht
    | cons t' ts ih =>
      intro b
      rw [walkAll]
      cases hwalk : b.walk t' with
      | error fault => exact ⟨fault, rfl⟩
      | ok b' =>
        obtain rfl | ht := List.mem_cons.1 ht
        · obtain ⟨fault, hfault⟩ := h b
          cases hwalk.symm.trans hfault
        · exact ih ht b'
  intro b
  rw [walk]
  cases b.enter (Form.ofRule info.rule) (.node info ts) with
  | error fault => exact ⟨fault, rfl⟩
  | ok entered =>
    obtain ⟨b', atEnd⟩ := entered
    obtain ⟨fault, hfault⟩ := hall b'
    refine ⟨fault, ?_⟩
    show (do let b ← b'.walkAll ts; b.leave atEnd) = _
    rw [hfault]
    rfl

end Phrase

end MiniC
