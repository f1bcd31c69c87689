import MiniC.Proofs.Phrase.Reading

/-!
# A text is read in one way

`read` goes through a row of lexemes from left to right and decides by the next lexeme alone, except that a bracket opens
a cast only if a word for a type follows. It finds every expression that a text stands for (`found_of_reads`): after an
operand has been read at a level, `more` goes on with the operators of this level. So a text stands for one expression
(`reads_unique`).
-/

namespace MiniC.Phrase

open List (replicate cons_append append_assoc nil_append)

variable {op : BinaryOp} {ls1 ls2 : List Lexeme}

/-! ### Looking at the next lexemes -/

def signOf? {α : Type} (table : String → Option α) : List Lexeme → Option (α × List Lexeme)
  | .sign s :: ls => (table s).map (·, ls)
  | _ => none

def after? (s : String) : List Lexeme → Option (List Lexeme)
  | .sign s' :: ls => if s' = s then some ls else none
  | _ => none

def PrefixOp.all : List PrefixOp :=
  [.unary .increment, .unary .decrement, .unary .plus, .unary .minus, .address, .dereference, .not]

def PrefixOp.ofSign? (s : String) : Option PrefixOp := all.find? (·.sign = s)

def SuffixOp.ofSign? (s : String) : Option SuffixOp := [increment, decrement].find? (·.sign = s)

def BinaryOp.ofSign? (l : Level) (s : String) : Option BinaryOp := l.operators.find? (·.sign = s)

def TypeWord.ofText? (s : String) : Option TypeWord := [char, float, int, void].find? (·.text = s)

/-- The pointers of a cast, up to its end. -/
def castStars? (count : Nat) : List Lexeme → Option (Nat × List Lexeme)
  | .sign s :: ls => if s = "*" then castStars? (count + 1) ls else if s = ")" then some (count, ls) else none
  | _ => none

/-- The rest of a cast after a word; of several words the last one counts. -/
def castWords? (w : TypeWord) : List Lexeme → Option ((TypeWord × Nat) × List Lexeme)
  | .sign s :: ls =>
    match TypeWord.ofText? s with
    | some w' => castWords? w' ls
    | none => (castStars? 0 (.sign s :: ls)).map fun r => ((w, r.1), r.2)
  | _ => none

def castOf? (ls : List Lexeme) : Option ((TypeWord × Nat) × List Lexeme) :=
  (after? "(" ls).bind fun ls => (signOf? TypeWord.ofText? ls).bind fun r => castWords? r.1 r.2

/-! ### Reading -/

mutual

/-- Reads an expression of a level, with some fuel. -/
def read : Nat → Level → List Lexeme → Option (Expr × List Lexeme)
  | 0, _, _ => none
  | n + 1, l, ls => (first n l ls).bind fun r => more n l r.1 r.2

/-- What an expression of a level begins with. -/
def first : Nat → Level → List Lexeme → Option (Expr × List Lexeme)
  | 0, _, _ => none
  | n + 1, .suffixed, ls => primary n ls
  | n + 1, .prefixed, ls =>
    match signOf? PrefixOp.ofSign? ls with
    | some r => (read n .prefixed r.2).map fun r' => (.prefixed r.1 r'.1, r'.2)
    | none =>
      match castOf? ls with
      | some r => (read n .prefixed r.2).map fun r' => (.cast r.1.1 r.1.2 r'.1, r'.2)
      | none => read n .suffixed ls
  | n + 1, l, ls => read n l.tighter ls

/-- Goes on after an operand of a level. -/
def more : Nat → Level → Expr → List Lexeme → Option (Expr × List Lexeme)
  | 0, _, _, _ => none
  | n + 1, .assignment, a, ls =>
    match after? "=" ls with
    | some ls => (read n .assignment ls).map fun r => (.assign a r.1, r.2)
    | none => some (a, ls)
  | n + 1, .conditional, c, ls =>
    match after? "?" ls with
    | some ls =>
      (read n .disjunction ls).bind fun r => (after? ":" r.2).bind fun ls =>
        (read n .conditional ls).map fun r' => (.conditional c r.1 r'.1, r'.2)
    | none => some (c, ls)
  | _ + 1, .prefixed, a, ls => some (a, ls)
  | n + 1, .suffixed, a, ls =>
    match signOf? SuffixOp.ofSign? ls with
    | some r => more n .suffixed (.suffixed r.1 a) r.2
    | none =>
      match after? "[" ls with
      | some ls =>
        (read n .comma ls).bind fun r => (after? "]" r.2).bind fun ls => more n .suffixed (.subscript a r.1) ls
      | none => some (a, ls)
  | n + 1, l, a, ls =>
    match signOf? (BinaryOp.ofSign? l) ls with
    | some r => (read n l.tighter r.2).bind fun r' => more n l (.binary r.1 a r'.1) r'.2
    | none => some (a, ls)

/-- A name, a literal, a call or an expression in brackets. -/
def primary : Nat → List Lexeme → Option (Expr × List Lexeme)
  | 0, _ => none
  | _ + 1, .integer s :: ls => some (.int (Binary64.digitsValue s.toList), ls)
  | n + 1, .identifier x :: ls =>
    match after? "(" ls with
    | some ls => (arguments n ls).map fun r => (.call x r.1, r.2)
    | none => some (.name x, ls)
  | n + 1, ls =>
    (after? "(" ls).bind fun ls => (read n .comma ls).bind fun r => (after? ")" r.2).map fun ls => (r.1, ls)

/-- The arguments of a call, up to its end. -/
def arguments : Nat → List Lexeme → Option (List Expr × List Lexeme)
  | 0, _ => none
  | n + 1, ls =>
    match after? ")" ls with
    | some ls => some ([], ls)
    | none => (read n .assignment ls).bind fun r => (moreArguments n r.2).map fun r' => (r.1 :: r'.1, r'.2)

def moreArguments : Nat → List Lexeme → Option (List Expr × List Lexeme)
  | 0, _ => none
  | n + 1, ls =>
    match after? ")" ls with
    | some ls => some ([], ls)
    | none =>
      (after? "," ls).bind fun ls => (read n .assignment ls).bind fun r =>
        (moreArguments n r.2).map fun r' => (r.1 :: r'.1, r'.2)

end

/-! ### Enough fuel -/

/-- With enough fuel there is a result, and it does not change any more. -/
def Settles {α : Type} (f : Nat → Option α) (a : α) : Prop := ∃ enough, ∀ n, enough ≤ n → f n = some a

namespace Settles

variable {α β : Type} {f f' : Nat → Option α} {a a' : α} {b : β}

theorem now (h : ∀ n, f (n + 1) = some a) : Settles f a := by
  refine ⟨1, fun n hn => ?_⟩
  obtain ⟨m, rfl⟩ : ∃ m, n = m + 1 := ⟨n - 1, by omega⟩
  exact h m

theorem later (h : Settles f a) (hf : ∀ n, f' (n + 1) = f n) : Settles f' a := by
  obtain ⟨enough, h⟩ := h
  refine ⟨enough + 1, fun n hn => ?_⟩
  obtain ⟨m, rfl⟩ : ∃ m, n = m + 1 := ⟨n - 1, by omega⟩
  rw [hf, h m (by omega)]

theorem bind {g : Nat → α → Option β} (h : Settles f a) (h' : Settles (fun n => g n a) b) :
    Settles (fun n => (f n).bind (g n)) b := by
  obtain ⟨enough, h⟩ := h
  obtain ⟨enough', h'⟩ := h'
  refine ⟨max enough enough', fun n hn => ?_⟩
  show (f n).bind (g n) = some b
  rw [h n (by omega), Option.bind_some]
  exact h' n (by omega)

theorem map (h : Settles f a) (g : α → β) : Settles (fun n => (f n).map g) (g a) := by
  obtain ⟨enough, h⟩ := h
  refine ⟨enough, fun n hn => ?_⟩
  show (f n).map g = some (g a)
  rw [h n hn, Option.map_some]

theorem unique (h : Settles f a) (h' : Settles f a') : a = a' := by
  obtain ⟨enough, h⟩ := h
  obtain ⟨enough', h'⟩ := h'
  have hn := h (max enough enough') (by omega)
  rw [h' (max enough enough') (by omega)] at hn
  exact (Option.some.inj hn).symm

end Settles

/-! ### Where a phrase ends -/

/-- The levels from the loosest to the tightest. -/
def Level.all : List Level :=
  [comma, assignment, conditional, disjunction, conjunction, equality, relation, sum, product, prefixed, suffixed]

/-- The signs that go on after an operand of a level. -/
def Level.own : Level → List String
  | assignment => ["="]
  | conditional => ["?"]
  | suffixed => ["(", "++", "--", "["]
  | l => l.operators.map (·.sign)

/-- The signs that go on after an expression of a level, at this level or a tighter one. -/
def Level.signs (l : Level) : List String := (all.dropWhile (· != l)).flatMap own

/-- The signs that must not follow an expression of a level if it is to be an operand at this level. -/
def Level.barred : Level → List String
  | suffixed => ["("]
  | l => if l.operators = [] then l.signs else l.tighter.signs

def Avoids (signs : List String) (ls : List Lexeme) : Prop := ∀ s ∈ signs, after? s ls = none

section
variable {l : Level} {ls k : List Lexeme} {s : String} {signs signs' : List String}

theorem Avoids.mono (h : Avoids signs ls) (hs : signs' ⊆ signs) : Avoids signs' ls := fun s hmem => h s (hs hmem)

theorem avoids_nil : Avoids signs [] := fun _ _ => rfl

theorem avoids_sign (h : s ∉ signs) : Avoids signs (.sign s :: ls) := by
  intro s' hs'
  have hne : s ≠ s' := by
    rintro rfl
    exact h hs'
  simp [after?, hne]

theorem barred_subset (l : Level) : l.barred ⊆ l.signs := by cases l <;> decide

theorem tighter_subset_barred (h : l ≠ .suffixed) : l.tighter.signs ⊆ l.barred := by
  revert h
  cases l <;> decide

theorem own_subset (l : Level) : l.own ⊆ l.signs := by cases l <;> decide

theorem signOf?_none {α : Type} {table : String → Option α} (h : ∀ s, (table s).isSome → s ∈ signs) (hls : Avoids signs ls) :
    signOf? table ls = none := by
  unfold signOf?
  split
  · rename_i s ls
    cases ht : table s with
    | none => rfl
    | some a => simpa [after?] using hls s (h s (by simp [ht]))
  · rfl

@[simp] theorem after?_self : after? s (.sign s :: ls) = some ls := by simp [after?]

theorem mem_of_ofSign? (h : BinaryOp.ofSign? l s = some op) : op ∈ l.operators ∧ op.sign = s := by
  have hsign := List.find?_some h
  exact ⟨List.mem_of_find?_eq_some h, of_decide_eq_true hsign⟩

theorem prefixOf?_sign (op : PrefixOp) : PrefixOp.ofSign? op.sign = some op := by
  rcases op with op | _ | _ | _
  · cases op <;> decide
  all_goals decide

theorem suffixOf?_sign (op : SuffixOp) : SuffixOp.ofSign? op.sign = some op := by cases op <;> decide

theorem typeOf?_text (w : TypeWord) : TypeWord.ofText? w.text = some w := by cases w <;> decide

end

/-! ### Reading goes on or stops -/

/-- An expression of a level is found in front. -/
abbrev Finds (l : Level) (ls : List Lexeme) (r : Expr × List Lexeme) : Prop := Settles (fun n => read n l ls) r

/-- After an operand of a level, reading goes on to a result. -/
abbrev Continues (l : Level) (a : Expr) (ls : List Lexeme) (r : Expr × List Lexeme) : Prop :=
  Settles (fun n => more n l a ls) r

section
variable {l : Level} {a b c e : Expr} {ls ls' k : List Lexeme} {r : Expr × List Lexeme}

theorem Finds.of_first (h : Settles (fun n => first n l ls) (a, k)) (hmore : Continues l a k r) : Finds l ls r :=
  (h.bind hmore).later fun _ => rfl

theorem first_tighter (hl : l ≠ .suffixed) (hp : l ≠ .prefixed) (h : Finds l.tighter ls r) :
    Settles (fun n => first n l ls) r := by
  refine h.later fun n => ?_
  cases l with
  | suffixed => exact absurd rfl hl
  | prefixed => exact absurd rfl hp
  | _ => rfl

theorem continues_binary (h : Finds op.level.tighter ls (b, k)) (hmore : Continues op.level (.binary op a b) k r) :
    Continues op.level a (.sign op.sign :: ls) r := by
  have hboth := Settles.bind (g := fun n r => more n op.level (.binary op a r.1) r.2) h hmore
  refine hboth.later fun n => ?_
  rcases op with _ | op | op | op
  · rfl
  all_goals cases op <;> rfl

theorem continues_stop (h : Avoids l.signs k) : Continues l a k (a, k) := by
  refine .now fun n => ?_
  have hown := h.mono (own_subset l)
  cases l with
  | assignment => simp [more, hown "=" (by decide)]
  | conditional => simp [more, hown "?" (by decide)]
  | prefixed => rfl
  | suffixed =>
    have hnone : signOf? SuffixOp.ofSign? k = none := by
      refine signOf?_none (fun s hs => ?_) hown
      obtain ⟨op, hop⟩ := Option.isSome_iff_exists.1 hs
      have hsign := List.find?_some hop
      obtain rfl := of_decide_eq_true hsign
      cases op <;> decide
    simp [more, hnone, hown "[" (by decide)]
  | _ =>
    all_goals
      rw [more, signOf?_none (fun s hs => ?_) hown]
      · obtain ⟨op, hop⟩ := Option.isSome_iff_exists.1 hs
        obtain ⟨hmem, rfl⟩ := mem_of_ofSign? hop
        exact List.mem_map_of_mem hmem
      all_goals simp

/-! ### How a phrase begins -/

/-- Something stands in front that is neither the end of a call or a subscript nor a word for a type. -/
def Opens (ls : List Lexeme) : Prop :=
  ∃ x rest, ls = x :: rest ∧ x ∉ [.sign ")", .sign "]"] ∧ ∀ w : TypeWord, x ≠ .sign w.text

/-- A literal, a name or a bracket that opens no cast stands in front. -/
inductive OpensPrimary : List Lexeme → Prop
  | integer (s : String) (ls : List Lexeme) : OpensPrimary (.integer s :: ls)
  | identifier (x : String) (ls : List Lexeme) : OpensPrimary (.identifier x :: ls)
  | bracket {ls : List Lexeme} : Opens ls → OpensPrimary (.sign "(" :: ls)

theorem Opens.append (h : Opens ls) (k : List Lexeme) : Opens (ls ++ k) := by
  obtain ⟨x, rest, rfl, hx⟩ := h
  exact ⟨x, rest ++ k, rfl, hx⟩

theorem OpensPrimary.append (h : OpensPrimary ls) (k : List Lexeme) : OpensPrimary (ls ++ k) := by
  cases h with
  | integer s ls => exact .integer s (ls ++ k)
  | identifier x ls => exact .identifier x (ls ++ k)
  | bracket hopen => exact .bracket (hopen.append k)

theorem OpensPrimary.opens (h : OpensPrimary ls) : Opens ls := by
  cases h with
  | integer | identifier => exact ⟨_, _, rfl, by simp, by simp⟩
  | bracket => exact ⟨_, _, rfl, by decide, fun w => by cases w <;> decide⟩

theorem OpensPrimary.both (h : OpensPrimary ls) : Opens ls ∧ (l = .suffixed → OpensPrimary ls) := ⟨h.opens, fun _ => h⟩

theorem opens_of_reads (h : Reads l ls e) : Opens ls ∧ (l = .suffixed → OpensPrimary ls) := by
  induction h with
  | tighter hl _ ih => exact ⟨ih.1, fun h => absurd h hl⟩
  | @binary op _ _ _ _ _ _ ih =>
    refine ⟨ih.1.append _, fun h => ?_⟩
    have hop := mem_operators.2 h
    simp [Level.operators] at hop
  | assign _ _ ih => exact ⟨ih.1.append _, by simp⟩
  | conditional _ _ _ ih => exact ⟨ih.1.append _, by simp⟩
  | @prefixed op =>
    refine ⟨⟨_, _, rfl, ?_⟩, by simp⟩
    rcases op with op | _ | _ | _
    · cases op <;> exact ⟨by decide, fun w => by cases w <;> decide⟩
    all_goals exact ⟨by decide, fun w => by cases w <;> decide⟩
  | cast => exact ⟨⟨_, _, rfl, by decide, fun w => by cases w <;> decide⟩, by simp⟩
  | suffixed _ ih => exact ⟨ih.1.append _, fun _ => (ih.2 rfl).append _⟩
  | subscript _ _ ih => exact ⟨ih.1.append _, fun _ => (ih.2 rfl).append _⟩
  | paren _ ih => exact (OpensPrimary.bracket (ih.1.append _)).both
  | int => exact (OpensPrimary.integer _ _).both
  | name | plainCall | call => exact (OpensPrimary.identifier _ _).both

/-- What a primary begins with is neither an operator nor a cast. -/
theorem OpensPrimary.not_prefixed (h : OpensPrimary ls) : signOf? PrefixOp.ofSign? ls = none ∧ castOf? ls = none := by
  cases h with
  | integer | identifier => exact ⟨rfl, rfl⟩
  | bracket hopen =>
    obtain ⟨y, rest, rfl, -, hy⟩ := hopen
    refine ⟨rfl, ?_⟩
    cases y with
    | sign s =>
      have hs : TypeWord.ofText? s = none := by
        refine List.find?_eq_none.2 fun w _ hw => hy w ?_
        rw [of_decide_eq_true hw]
      simp [castOf?, signOf?, hs]
    | _ => simp [castOf?, signOf?]

theorem castStars?_replicate (count stars : Nat) (ls : List Lexeme) :
    castStars? count (replicate stars (.sign "*") ++ .sign ")" :: ls) = some (count + stars, ls) := by
  induction stars generalizing count with
  | zero => simp [castStars?]
  | succ stars ih => simp [List.replicate_succ, castStars?, ih, Nat.add_comm, Nat.add_left_comm]

theorem castWords?_stars (w : TypeWord) (stars : Nat) (ls : List Lexeme) :
    castWords? w (replicate stars (.sign "*") ++ .sign ")" :: ls) = some ((w, stars), ls) := by
  have hstars := castStars?_replicate 0 stars ls
  have hstar : TypeWord.ofText? "*" = none := by decide
  have hend : TypeWord.ofText? ")" = none := by decide
  cases stars with
  | zero => simpa [castWords?, hend] using hstars
  | succ stars =>
    rw [List.replicate_succ, cons_append] at hstars ⊢
    simp [castWords?, hstar, hstars]

theorem castWords?_words (w0 w : TypeWord) (ws : List TypeWord) (stars : Nat) (ls : List Lexeme) :
    castWords? w0 ((ws ++ [w]).map (fun w => .sign w.text) ++ replicate stars (.sign "*") ++ .sign ")" :: ls) =
      some ((w, stars), ls) := by
  induction ws generalizing w0 with
  | nil => simpa [castWords?, typeOf?_text] using castWords?_stars w stars ls
  | cons w1 ws ih => simpa [castWords?, typeOf?_text] using ih w1

theorem castOf?_cast (w : TypeWord) (ws : List TypeWord) (stars : Nat) (ls : List Lexeme) :
    castOf? (.sign "(" :: ((ws ++ [w]).map (fun w => .sign w.text) ++ replicate stars (.sign "*") ++ .sign ")" :: ls)) =
      some ((w, stars), ls) := by
  cases ws with
  | nil => simpa [castOf?, signOf?, typeOf?_text] using castWords?_stars w stars ls
  | cons w1 ws => simpa [castOf?, signOf?, typeOf?_text] using castWords?_words w1 w ws stars ls

/-! ### Every expression that is read is found -/

/-- An expression is found in front of whatever may follow an operand, and reading goes on from there. -/
def Found (l : Level) (ls : List Lexeme) (e : Expr) : Prop :=
  ∀ k r, Avoids l.barred k → Continues l e k r → Finds l (ls ++ k) r

theorem Found.stop (h : Found l ls e) (hk : Avoids l.signs k) : Finds l (ls ++ k) (e, k) :=
  h k _ (hk.mono (barred_subset l)) (continues_stop hk)

/-- An expression is found before a sign that ends it. -/
theorem Found.before (h : Found l ls e) (s : String) (hs : s ∉ l.signs) (k : List Lexeme) :
    Finds l (ls ++ .sign s :: k) (e, .sign s :: k) := h.stop (avoids_sign hs)

theorem found_tighter (hl : l ≠ .suffixed) (ht : Reads l.tighter ls e) (h : Found l.tighter ls e) : Found l ls e := by
  intro k r hk hmore
  have hfind : Finds l.tighter (ls ++ k) (e, k) := h.stop (hk.mono (tighter_subset_barred hl))
  by_cases hp : l = .prefixed
  · subst hp
    obtain ⟨hsign, hcast⟩ := (((opens_of_reads ht).2 rfl).append k).not_prefixed
    refine .of_first (hfind.later fun n => ?_) hmore
    simp only [first, hsign, hcast, Level.tighter]
  · exact .of_first (first_tighter hl hp hfind) hmore

theorem found_binary (h1 : Found op.level ls1 a) (h2 : Found op.level.tighter ls2 b) :
    Found op.level (ls1 ++ .sign op.sign :: ls2) (.binary op a b) := by
  intro k r hk hmore
  have hop := mem_operators.2 (rfl : op.level = op.level)
  have hbarred : op.level.barred = op.level.tighter.signs := by
    rcases op with _ | op | op | op
    · decide
    all_goals cases op <;> decide
  have hsign : op.sign ∉ op.level.barred := by
    rcases op with _ | op | op | op
    · decide
    all_goals cases op <;> decide
  rw [append_assoc, cons_append]
  refine h1 _ r (avoids_sign hsign) (continues_binary (h2.stop ?_) hmore)
  rwa [← hbarred]

theorem found_assign (h1 : Found .conditional ls1 a) (h2 : Found .assignment ls2 b) :
    Found .assignment (ls1 ++ .sign "=" :: ls2) (.assign a b) := by
  intro k r hk hmore
  have hk' : Avoids Level.assignment.signs k := hk
  obtain rfl : (.assign a b, k) = r := (continues_stop hk').unique hmore
  rw [append_assoc, cons_append]
  have hfirst := first_tighter (l := .assignment) (by decide) (by decide) (h1.before "=" (by decide) (ls2 ++ k))
  have hvalue := (h2.stop hk').map fun r => (Expr.assign a r.1, r.2)
  exact .of_first hfirst (hvalue.later fun n => by simp [more])

theorem found_conditional {ls3 : List Lexeme} (h1 : Found .disjunction ls1 c) (h2 : Found .disjunction ls2 a)
    (h3 : Found .conditional ls3 b) :
    Found .conditional (ls1 ++ .sign "?" :: (ls2 ++ .sign ":" :: ls3)) (.conditional c a b) := by
  intro k r hk hmore
  have hk' : Avoids Level.conditional.signs k := hk
  obtain rfl : (.conditional c a b, k) = r := (continues_stop hk').unique hmore
  simp only [append_assoc, cons_append]
  have hfirst := first_tighter (l := .conditional) (by decide) (by decide) (h1.before "?" (by decide) (ls2 ++ .sign ":" :: (ls3 ++ k)))
  have hthen := h2.before ":" (by decide) (ls3 ++ k)
  have helse := (h3.stop hk').map fun r => (Expr.conditional c a r.1, r.2)
  refine .of_first hfirst ?_
  have hboth := Settles.bind (g := fun n r => (after? ":" r.2).bind fun ls =>
    (read n .conditional ls).map fun r' => (Expr.conditional c r.1 r'.1, r'.2)) hthen (by simpa using helse)
  exact hboth.later fun n => by simp [more]

theorem found_prefixed {op : PrefixOp} (h : Found .prefixed ls a) :
    Found .prefixed (.sign op.sign :: ls) (.prefixed op a) := by
  intro k r hk hmore
  refine .of_first (((h.stop hk).map fun r => (.prefixed op r.1, r.2)).later fun n => ?_) hmore
  simp only [first, cons_append, signOf?, prefixOf?_sign, Option.map_some]

theorem found_cast {w : TypeWord} {ws : List TypeWord} {stars : Nat} (h : Found .prefixed ls a) :
    Found .prefixed
      (.sign "(" :: ((ws ++ [w]).map (fun w => .sign w.text) ++ replicate stars (.sign "*") ++ .sign ")" :: ls))
      (.cast w stars a) := by
  intro k r hk hmore
  have hcast := castOf?_cast w ws stars (ls ++ k)
  rw [cons_append, append_assoc, cons_append]
  refine .of_first (((h.stop hk).map fun r => (.cast w stars r.1, r.2)).later fun n => ?_) hmore
  simp only [first, signOf?, hcast]
  rfl

theorem first_suffixed (h : Settles (fun n => primary n ls) r) : Settles (fun n => first n .suffixed ls) r :=
  h.later fun _ => rfl

theorem found_suffixed {op : SuffixOp} (h : Found .suffixed ls a) :
    Found .suffixed (ls ++ [.sign op.sign]) (.suffixed op a) := by
  intro k r hk hmore
  have hbarred : op.sign ∉ Level.suffixed.barred := by cases op <;> decide
  rw [append_assoc, cons_append, nil_append]
  refine h _ r (avoids_sign hbarred) (hmore.later fun n => ?_)
  simp only [more, signOf?, suffixOf?_sign, Option.map_some]

theorem found_subscript (h1 : Found .suffixed ls1 a) (h2 : Found .comma ls2 b) :
    Found .suffixed (ls1 ++ .sign "[" :: (ls2 ++ [.sign "]"])) (.subscript a b) := by
  intro k r hk hmore
  simp only [append_assoc, cons_append, nil_append]
  refine h1 _ r (avoids_sign (by decide)) ?_
  have hboth := Settles.bind (g := fun n r => (after? "]" r.2).bind fun ls => more n .suffixed (.subscript a r.1) ls)
    (h2.before "]" (by decide) k) (by simpa using hmore)
  have hsign : SuffixOp.ofSign? "[" = none := by decide
  exact hboth.later fun n => by simp [more, signOf?, hsign]

theorem found_paren (h : Found .comma ls a) : Found .suffixed (.sign "(" :: (ls ++ [.sign ")"])) a := by
  intro k r hk hmore
  rw [cons_append, append_assoc, cons_append, nil_append]
  refine .of_first (first_suffixed ?_) hmore
  have hboth := Settles.bind (g := fun _ r => (after? ")" r.2).map fun ls => (r.1, ls)) (h.before ")" (by decide) k)
    (.now fun _ => by simp; rfl)
  exact hboth.later fun n => by simp [primary]

theorem found_int {s : String} : Found .suffixed [.integer s] (.int (Binary64.digitsValue s.toList)) := by
  intro k r hk hmore
  exact .of_first (first_suffixed (.now fun _ => rfl)) hmore

theorem found_name {x : String} : Found .suffixed [.identifier x] (.name x) := by
  intro k r hk hmore
  have hopen : after? "(" k = none := hk "(" (by decide)
  refine .of_first (first_suffixed (.now fun n => ?_)) hmore
  simp [primary, hopen]

theorem found_plainCall {f : String} : Found .suffixed [.identifier f, .sign "(", .sign ")"] (.call f []) := by
  intro k r hk hmore
  have hargs : Settles (fun n => arguments n (.sign ")" :: k)) ([], k) := .now fun n => by simp [arguments]
  refine .of_first (first_suffixed ((hargs.map fun r => (.call f r.1, r.2)).later fun n => ?_)) hmore
  simp [primary]

theorem avoids_arguments {more : List (List Lexeme × Expr)} :
    Avoids Level.assignment.signs (more.flatMap (fun m => .sign "," :: m.1) ++ .sign ")" :: k) := by
  cases more with
  | nil => exact avoids_sign (by decide)
  | cons m more => exact avoids_sign (by decide)

/-- Arguments after commas are found, up to the end of the call. -/
theorem settles_moreArguments {more : List (List Lexeme × Expr)} (h : ∀ m ∈ more, Found .assignment m.1 m.2) :
    Settles (fun n => moreArguments n (more.flatMap (fun m => .sign "," :: m.1) ++ .sign ")" :: k))
      (more.map (·.2), k) := by
  induction more with
  | nil => exact .now fun n => by simp [moreArguments]
  | cons m more ih =>
    obtain ⟨hm, hmore⟩ := List.forall_mem_cons.1 h
    have hboth := Settles.bind (g := fun n r => (moreArguments n r.2).map fun r' => (r.1 :: r'.1, r'.2))
      (hm.stop avoids_arguments) ((ih hmore).map _)
    refine hboth.later fun n => ?_
    simp [moreArguments, after?]

theorem settles_arguments {more : List (List Lexeme × Expr)} (h : Found .assignment ls a) (hopen : Opens ls)
    (hmore : ∀ m ∈ more, Found .assignment m.1 m.2) :
    Settles (fun n => arguments n (ls ++ (more.flatMap (fun m => .sign "," :: m.1) ++ .sign ")" :: k)))
      (a :: more.map (·.2), k) := by
  have hboth := Settles.bind (g := fun n r => (moreArguments n r.2).map fun r' => (r.1 :: r'.1, r'.2))
    (h.stop (avoids_arguments (k := k))) ((settles_moreArguments hmore).map _)
  refine hboth.later fun n => ?_
  have hnone (k : List Lexeme) : after? ")" (ls ++ k) = none := by
    obtain ⟨x, rest, rfl, hx, -⟩ := hopen
    cases x <;> simp_all [after?]
  simp only [arguments, hnone]

theorem found_call {f : String} {more : List (List Lexeme × Expr)} (h : Found .assignment ls a) (hopen : Opens ls)
    (hmore : ∀ m ∈ more, Found .assignment m.1 m.2) :
    Found .suffixed
      (.identifier f :: .sign "(" :: (ls ++ more.flatMap (fun m => .sign "," :: m.1) ++ [.sign ")"]))
      (.call f (a :: more.map (·.2))) := by
  intro k r hk hnext
  have hcall := (settles_arguments (k := k) h hopen hmore).map fun r => (Expr.call f r.1, r.2)
  refine .of_first (first_suffixed (hcall.later fun n => ?_)) hnext
  simp [primary]

theorem found_of_reads (h : Reads l ls e) : Found l ls e := by
  induction h with
  | tighter hl ht ih => exact found_tighter hl ht ih
  | binary _ _ ih1 ih2 => exact found_binary ih1 ih2
  | assign _ _ ih1 ih2 => exact found_assign ih1 ih2
  | conditional _ _ _ ih1 ih2 ih3 => exact found_conditional ih1 ih2 ih3
  | prefixed _ ih => exact found_prefixed ih
  | cast _ ih => exact found_cast ih
  | suffixed _ ih => exact found_suffixed ih
  | subscript _ _ ih1 ih2 => exact found_subscript ih1 ih2
  | paren _ ih => exact found_paren ih
  | int => exact found_int
  | name => exact found_name
  | plainCall => exact found_plainCall
  | call ht _ ih ihs => exact found_call ih (opens_of_reads ht).1 ihs

/-- The same lexemes stand for one expression. -/
theorem reads_unique {e' : Expr} (h : Reads l ls e) (h' : Reads l ls e') : e = e' := by
  have hfind := (found_of_reads h).stop avoids_nil
  have hfind' := (found_of_reads h').stop avoids_nil
  exact congrArg Prod.fst (hfind.unique hfind')

end

end MiniC.Phrase
