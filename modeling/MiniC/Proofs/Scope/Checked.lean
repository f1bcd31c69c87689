import MiniC.Proofs.Pass.Accepted
import MiniC.Proofs.Scope.Library

/-!
# Places after the check of types

The check of types leaves the table as it is, and in the tree it puts lists around elements of initialisers, where
nothing is declared. So what the first two passes have made true of names and places is true of the program that code
is made from.
-/

namespace MiniC

open SymbolTable

/-- The name of the variable or parameter that a node declares. -/
def Kind.variable? : Kind → Option String
  | .declarator head => head.name
  | .parameter head => head.name
  | _ => none

namespace Lexical

variable {T t : SymbolTable} {sp : Spot} {n n' : Node} {ns ns' : List Node} {x : String}

/-! ## Trees -/

theorem Spot.pastAll_follows (h : Follows false ns ns') (hf : Node.formedAll ns = true) (sp : Spot) :
    sp.pastAll ns' = sp.pastAll ns := by
  generalize hb : false = b at h
  induction h generalizing sp with
  | nil => rfl
  | @node b id kind kind' o cs cs' ns ns' hkind hcs hns ihcs ihns =>
    obtain ⟨hn, hfs⟩ : (Node.mk id kind o cs).formed = true ∧ Node.formedAll ns = true := by simpa [Node.formedAll] using hf
    have hbare : kind'.bare = kind.bare := hkind.bare
    have hpast : sp.past (.mk id kind' o cs') = sp.past (.mk id kind o cs) := by
      by_cases hinert : kind.isInert = true
      · have hfollows : Follows false [.mk id kind o cs] [.mk id kind' o cs'] := .node hkind hcs .nil
        have hn' : (Node.mk id kind' o cs').formed = true := by
          simpa [Node.formedAll] using (hfollows.formed (by simp [Node.formedAll, hn]) (by simp)).1
        have hinert' : kind'.isInert = true := by rw [← Kind.isInert_bare, hbare, Kind.isInert_bare, hinert]
        rw [Spot.past_inert hn hinert, Spot.past_inert hn' hinert']
      · have hlist : false = kind.isInitializerList := by
          cases kind <;> first | rfl | exact (hinert rfl).elim
        have hcs := ihcs (Bool.and_eq_true_iff.1 hn).2 (sp.into id kind) hlist
        rw [← Spot.into_congr hbare] at hcs
        cases hopens : opens sp.above kind.bare with
        | false => rw [past_closed hopens, past_closed (hbare ▸ hopens), hcs, Spot.into_congr hbare]
        | true => rw [past_opened hopens, past_opened (hbare ▸ hopens), hcs, Spot.into_congr hbare]
    rw [pastAll_cons, pastAll_cons, hpast, ihns hfs _ hb]
  | wrapped => cases hb

theorem Linked.refines {kind kind' : Kind} (hkind : kind.Refines kind') (h : Linked T sp kind) : Linked T sp kind' := by
  obtain rfl | ⟨called, callee, pieces, pieces', rfl, rfl⟩ := hkind
  · exact h
  · trivial

theorem ThroughoutAll.follows (h : Follows false ns ns') (hf : Node.formedAll ns = true)
    (hns : ThroughoutAll (Resolved T) sp ns) : ThroughoutAll (Resolved T) sp ns' := by
  generalize hb : false = b at h
  induction h generalizing sp with
  | nil => trivial
  | @node b id kind kind' o cs cs' ns ns' hkind hcs hrest ihcs ihns =>
    subst hb
    obtain ⟨hn, hfs⟩ : (Node.mk id kind o cs).formed = true ∧ Node.formedAll ns = true := by simpa [Node.formedAll] using hf
    have hbare : kind'.bare = kind.bare := hkind.bare
    have hinert : kind'.isInert = kind.isInert := by rw [← Kind.isInert_bare, hbare, Kind.isInert_bare]
    have hfollows : Follows false [.mk id kind o cs] [.mk id kind' o cs'] := .node hkind hcs .nil
    have hresolved := hns.1.1
    have hself : Resolved T sp (.mk id kind' o cs') := by
      refine ⟨hresolved.toSettled.refines rfl hbare, fun hi => ?_⟩
      exact (hfollows.each (fun _ _ => Linked.refines) trivial ⟨hresolved.linked (hinert ▸ hi), trivial⟩).1
    refine ⟨⟨hself, fun hbelow => ?_⟩, ?_⟩
    · have hbelow' : (kind.isInert || kind.isParameter) = false := by
        obtain rfl | ⟨called, callee, pieces, pieces', rfl, rfl⟩ := hkind
        · exact hbelow
        · exact hbelow
      have hlist : false = kind.isInitializerList := by
        cases kind <;> first | rfl | cases hbelow'
      rw [Spot.into_congr hbare]
      exact ihcs (Bool.and_eq_true_iff.1 hn).2 (hns.1.2 hbelow') hlist
    · have hpast := Spot.pastAll_follows hfollows (by simp [Node.formedAll, hn]) sp
      rw [Spot.pastAll_cons, Spot.pastAll_cons, Spot.pastAll_nil, Spot.pastAll_nil] at hpast
      rw [hpast]
      exact ihns hfs hns.2 rfl
  | wrapped => cases hb

end Lexical

/-! ## Tables -/

/-- The nodes that variables and texts were made for. -/
def Origin.objects (os : List (Nat × Origin)) : List Nat :=
  os.filterMap fun
    | (id, .object _) => some id
    | _ => none

theorem Origin.objects_sublist (os : List (Nat × Origin)) : (objects os).Sublist (os.map (·.1)) := by
  induction os with
  | nil => exact .slnil
  | cons o os ih =>
    obtain ⟨id, _ | _⟩ := o
    · exact ih.cons_cons id
    · exact ih.cons id

namespace SymbolTable

variable {T t : SymbolTable} {n : Node} {x : String} {s k : Nat}

/-- The address of the variable that a node declares. -/
def addressAt (t : SymbolTable) (id : Nat) : Option Int :=
  t.symbols.toList.findSome? fun
    | .object o => if o.node = id then o.address else none
    | .function _ => none

/-- The variable that a node declares is the only one. -/
def Located (t : SymbolTable) : Prop := ∀ o, .object o ∈ t.symbols.toList → t.addressAt o.node = o.address

theorem mem_objects {xs : List Symbol} {o : ObjectSymbol} (h : .object o ∈ xs) :
    o.node ∈ Origin.objects (xs.map Symbol.origin) :=
  List.mem_filterMap.2 ⟨(o.node, .object o.name), List.mem_map.2 ⟨_, h, rfl⟩, rfl⟩

theorem located_of_nodup (h : (Origin.objects t.origins).Nodup) : Located t := by
  intro o ho
  unfold addressAt
  rw [origins] at h
  generalize t.symbols.toList = xs at h ho
  induction xs with
  | nil => cases ho
  | cons x xs ih =>
    rw [List.findSome?_cons]
    cases x with
    | function f => exact ih h (by simpa using ho)
    | object p =>
      obtain ⟨hp, hxs⟩ : p.node ∉ Origin.objects (xs.map Symbol.origin) ∧ (Origin.objects (xs.map Symbol.origin)).Nodup :=
        List.nodup_cons.1 h
      obtain heq | ho := List.mem_cons.1 ho
      · obtain rfl : o = p := by injection heq
        cases haddress : o.address with
        | some a => simp [haddress]
        | none =>
          -- no other variable is of this node
          have hnone : ∀ y ∈ xs, (match y with
              | .object q => if q.node = o.node then q.address else none
              | .function _ => none) = none := by
            intro y hy
            cases y with
            | function f => rfl
            | object q =>
              refine if_neg fun hq => hp ?_
              rw [← hq]
              exact mem_objects hy
          simpa [haddress] using List.findSome?_eq_none_iff.2 hnone
      · have hne : p.node ≠ o.node := fun heq => hp (heq ▸ mem_objects ho)
        simpa [hne] using ih hxs ho

theorem Replays.symbols_eq (h : Replays T s k t) : t.symbols.toList.map Symbol.unseen = T.symbols.toList := by
  refine List.ext_getElem? fun i => ?_
  have hsymbol := h.symbol_eq i
  have hsize := h.symbols_size
  simp only [symbol] at hsymbol
  rw [List.getElem?_map, Array.getElem?_toList, Array.getElem?_toList]
  by_cases hi : i < t.symbols.size
  · have hi' : i < T.symbols.size := by omega
    rw [Array.getElem?_eq_getElem hi, Array.getElem?_eq_getElem hi'] at hsymbol ⊢
    exact congrArg some hsymbol
  · rw [Array.getElem?_eq_none (by omega), Array.getElem?_eq_none (by omega)]
    rfl

theorem Replays.origins_eq (h : Replays T s k t) : T.origins = t.origins := by
  rw [origins, origins, ← h.symbols_eq, List.map_map]
  exact List.map_congr_left fun x _ => origin_unseen x

theorem Replays.addressAt (h : Replays T s k t) (id : Nat) : t.addressAt id = T.addressAt id := by
  unfold SymbolTable.addressAt
  rw [← h.symbols_eq, List.findSome?_map]
  congr 1
  funext x
  cases x <;> rfl

theorem Located.replays (h : Replays T s k t) (hT : Located T) : Located t := by
  intro o ho
  have hmem : .object { o with seen := 0 } ∈ T.symbols.toList := by
    rw [← h.symbols_eq]
    exact List.mem_map_of_mem (f := Symbol.unseen) ho
  rw [h.addressAt]
  exact hT { o with seen := 0 } hmem

/-- No variable has a name if no node declares one with it. -/
theorem isFree_of_origins (hT : Built T) (h : ∀ id, (id, .object (some x)) ∉ T.origins) : T.IsFree x := by
  intro v hv
  have hentry := mem_of_named? hv
  have hmem := origin_mem (hT.entry_lt 0 _ hentry)
  have hname := hT.name_eq 0 _ hentry
  cases hsymbol : T.symbol v with
  | function f => rfl
  | object o =>
    rw [hsymbol] at hmem hname
    have hname : o.name = some x := hname
    rw [Symbol.origin, hname] at hmem
    exact (h _ hmem).elim

end SymbolTable

mutual

theorem Node.not_mem_origins (n : Node) {x : String} (h : n.Each fun k => k.variable? ≠ some x) (i : Nat) :
    (i, .object (some x)) ∉ n.origins := by
  match n with
  | .mk id kind o cs =>
    rw [origins, List.mem_append, not_or]
    refine ⟨fun hmem => ?_, not_mem_originsAll cs h.2 i⟩
    have hkind := h.1
    cases kind with
    | declarator head | parameter head =>
      obtain ⟨-, hname⟩ : i = id ∧ head.name = some x := by simpa [Kind.origin?, eq_comm] using hmem
      exact hkind hname
    | _ => simp [Kind.origin?] at hmem

theorem Node.not_mem_originsAll (ns : List Node) {x : String} (h : EachAll (fun k => k.variable? ≠ some x) ns) (i : Nat) :
    (i, .object (some x)) ∉ originsAll ns := by
  match ns with
  | [] => simp [originsAll]
  | n :: ns =>
    rw [originsAll, List.mem_append, not_or]
    exact ⟨not_mem_origins n h.1 i, not_mem_originsAll ns h.2 i⟩

end

/-! ## Programs -/

/-- The names of a program without errors have the symbols of the variables that they stand for. -/
theorem Accepted.places {n n1 n2 n3 n' : Node} {s1 s2 s' : PassState} (h : Accepted n n1 n2 n3 n' s1 s2 s') (hn : n.IsProgram)
    (hfree : n.Each fun k => k.variable? ≠ some "printf" ∧ k.variable? ≠ some "scanf") :
    ∃ T id o cs, n' = .mk id .program o cs ∧ n'.formed = true ∧ Built T ∧ Located T ∧ Replays T 0 1 s'.table ∧
      Lexical.ThroughoutAll (Lexical.Resolved T) (.top id) cs := by
  obtain ⟨hlike1, hlike2, hlike3⟩ := h.like
  obtain ⟨i1, o1, cs1, rfl⟩ := (hn.congr hlike1).eq
  obtain ⟨cs2, T, rfl, hreset, hfilling, hsettled, -, -⟩ := Lexical.fill_program (hn.congr hlike1).formed rfl h.filled
  have hnew : T.origins.Sublist n.origins := by
    obtain ⟨new, heq, hnew⟩ := Fill.adds_visit [] _ _ _ _ h.filled.runs
    rw [hreset] at heq
    have heq : T.origins = new := heq
    rw [heq, ← Node.origins_congr hlike1]
    exact hnew
  have hlibrary : Lexical.LibraryFree T := by
    have hnot : ∀ x, n.Each (fun k => k.variable? ≠ some x) → T.IsFree x := fun x hx =>
      isFree_of_origins hfilling.built fun i hi => Node.not_mem_origins n hx i (hnew.subset hi)
    exact ⟨hnot _ (hfree.mono fun k hk => hk.1), hnot _ (hfree.mono fun k hk => hk.2)⟩
  obtain ⟨cs3, T', rfl, hT', hreplays, hresolved⟩ := Lexical.resolve_program (hn.congr hlike2).formed hfilling.built hlibrary
    hsettled hreset h.resolved
  have hlocated : Located T' := by
    apply located_of_nodup
    obtain ⟨ms, s3, -, hvisit, hreset2, -⟩ := Resolve.quiet_program h.resolved
    obtain ⟨new, horigins, hsub⟩ := Resolve.adds_visitAll _ _ _ _ _ hvisit.runs
    have hstart : s3.table.origins = T.origins ++ new := by
      rw [horigins]
      dsimp only
      rw [hreset]
      rfl
    have hobjects : Origin.objects new = [] := by
      refine List.filterMap_eq_nil_iff.2 fun x hx => ?_
      have hmem : x ∈ libraryOrigins := Node.mem_librariesAll _ x (hsub.subset hx)
      obtain rfl | rfl : x = _ ∨ x = _ := by simpa [libraryOrigins] using hmem
      · rfl
      · rfl
    have heq : T'.origins = T.origins ++ new := by
      rw [hreplays.origins_eq, hreset2]
      exact hstart
    rw [heq, Origin.objects, List.filterMap_append]
    change (Origin.objects T.origins ++ Origin.objects new).Nodup
    rw [hobjects, List.append_nil]
    exact hn.nodup.sublist ((Origin.objects_sublist _).trans ((hnew.map _).trans n.origins_sublist))
  have hfollows := h.follows hn
  have hformed3 := (hn.congr hlike3).formed
  have hformed := (hfollows.formed (by simp [Node.formedAll, hformed3]) (by simp)).1
  obtain ⟨kind', cs', rfl, hkind, hcs'⟩ := hfollows.one
  obtain rfl : kind' = .program := by
    obtain rfl | ⟨called, callee, pieces, pieces', heq, -⟩ := hkind
    · rfl
    · cases heq
  refine ⟨T', i1, o1, cs', rfl, by simpa [Node.formedAll] using hformed, hT', hlocated, ?_, ?_⟩
  · rw [((Check.checked_run _).runs h.checked.runs).table]
    exact hreplays
  · exact Lexical.ThroughoutAll.follows hcs' (Bool.and_eq_true_iff.1 hformed3).2 hresolved

end MiniC
