import MiniC.Proofs.Phrase.Unique
import MiniC.Proofs.Phrase.Scanning

/-!
# Written expressions are built again

The text of an expression, with brackets only where its operators need them, has a parse tree, and each of its parse trees
is built into the expression (`walk_spaced`). Integers have at most `maxDigits` digits: the builder refuses longer ones
(`walk_long_literal`).
-/

namespace MiniC.Phrase

open Builder

mutual

/-- The names of an expression are no words of the grammar, and its integers can be read. -/
def Expr.IsWritable : Expr → Prop
  | .int value => value < 10 ^ maxDigits
  | .name x => IsName x
  | .call f args => IsName f ∧ AreWritable args
  | .cast _ _ e | .prefixed _ e | .suffixed _ e => e.IsWritable
  | .subscript a b | .binary _ a b | .assign a b => a.IsWritable ∧ b.IsWritable
  | .conditional c a b => c.IsWritable ∧ a.IsWritable ∧ b.IsWritable

def AreWritable : List Expr → Prop
  | [] => True
  | e :: es => e.IsWritable ∧ AreWritable es

end

/-! ### The lexemes of expressions -/

theorem isInteger_toString (value : Nat) : isInteger (toString value).toList = true := by
  rw [toList_toString, isInteger, Bool.and_eq_true, List.all_eq_true]
  exact ⟨by simp [Nat.toDigits_ne_nil], fun c hc => Nat.isDigit_of_mem_toDigits (by decide) (by decide) hc⟩

/-- The digits of a number are read as a number, as long as they are not too many. -/
theorem integerKind_toString (value : Nat) :
    integerKind (toString value) =
      if value < 10 ^ maxDigits then .ok (.integer (Binary64.digitsValue (toString value).toList)) else .error .malformed := by
  have hdigits := isInteger_toString value
  have hlength : maxDigits < (toString value).toList.length ↔ ¬ value < 10 ^ maxDigits := by
    rw [toList_toString, ← Nat.length_toDigits_le_iff (by decide) (by decide), Nat.not_le]
  simp only [isInteger, Bool.and_eq_true, List.all_eq_true, Bool.not_eq_true'] at hdigits
  have hany : (toString value).toList.any (fun c => !c.isDigit) = false := by
    simpa [List.any_eq_false] using hdigits.2
  simp only [integerKind, hdigits.1, hany, Bool.or_false, Bool.false_or, decide_eq_true_eq, hlength]
  by_cases hvalue : value < 10 ^ maxDigits
  · simp only [hvalue, not_true_eq_false, if_false, if_true]
    rfl
  · simp only [hvalue, not_false_eq_true, if_false, if_true]
    rfl

/-- Lexemes with the spelling of their types, of which integers can be read. -/
def AllWritten (ls : List Lexeme) : Prop := ∀ l ∈ ls, l.IsSpelled ∧ l.Converts

section
variable {ls ls' : List Lexeme}

theorem AllWritten.append (h : AllWritten ls) (h' : AllWritten ls') : AllWritten (ls ++ ls') :=
  List.forall_mem_append.2 ⟨h, h'⟩

theorem AllWritten.sign {s : String} (hs : s ∈ signs) (h : AllWritten ls) : AllWritten (.sign s :: ls) :=
  List.forall_mem_cons.2 ⟨⟨hs, trivial⟩, h⟩

theorem AllWritten.name {x : String} (hx : IsName x) (h : AllWritten ls) : AllWritten (.identifier x :: ls) :=
  List.forall_mem_cons.2 ⟨⟨hx, trivial⟩, h⟩

theorem allWritten_nil : AllWritten [] := List.forall_mem_nil _

theorem AllWritten.placed (h : AllWritten ls) (place own : Level) : AllWritten (placed place own ls) := by
  unfold Phrase.placed
  split
  · exact h
  · exact .sign (by decide) (h.append (.sign (by decide) allWritten_nil))

theorem AllWritten.stars (h : AllWritten ls) (stars : Nat) : AllWritten (List.replicate stars (.sign "*") ++ ls) := by
  induction stars with
  | zero => exact h
  | succ stars ih => exact .sign (by decide) ih

theorem allWritten_int {value : Nat} (h : value < 10 ^ maxDigits) : AllWritten [.integer (toString value)] := by
  refine List.forall_mem_singleton.2 ⟨isInteger_toString value, ?_⟩
  show integerKind (toString value) = _
  rw [integerKind_toString, if_pos h]

end

mutual

theorem allWritten_lexemes : (e : Expr) → e.IsWritable → AllWritten e.lexemes
  | .int value, h => by
    rw [Expr.lexemes]
    exact allWritten_int h
  | .name x, h => by
    rw [Expr.lexemes]
    exact .name h allWritten_nil
  | .call f args, h => by
    rw [Expr.lexemes]
    exact .name h.1 (.sign (by decide) ((allWritten_lexemesAll args h.2).append (.sign (by decide) allWritten_nil)))
  | .cast w stars e, h => by
    rw [Expr.lexemes]
    have he : AllWritten e.lexemes := allWritten_lexemes e h
    have hword : w.text ∈ signs := by cases w <;> decide
    exact .sign (by decide) (.sign hword (AllWritten.stars (.sign (by decide) (he.placed _ _)) stars))
  | .prefixed op e, h => by
    rw [Expr.lexemes]
    have he : AllWritten e.lexemes := allWritten_lexemes e h
    exact .sign op.sign_mem (he.placed _ _)
  | .suffixed op e, h => by
    rw [Expr.lexemes]
    have he : AllWritten e.lexemes := allWritten_lexemes e h
    exact (he.placed _ _).append (.sign (by cases op <;> decide) allWritten_nil)
  | .subscript a i, h => by
    rw [Expr.lexemes]
    have hi := ((allWritten_lexemes i h.2).placed .comma i.level).append (.sign (s := "]") (by decide) allWritten_nil)
    exact ((allWritten_lexemes a h.1).placed _ _).append (.sign (by decide) hi)
  | .binary op a b, h => by
    rw [Expr.lexemes]
    exact ((allWritten_lexemes a h.1).placed _ _).append (.sign op.sign_mem ((allWritten_lexemes b h.2).placed _ _))
  | .assign a b, h => by
    rw [Expr.lexemes]
    exact ((allWritten_lexemes a h.1).placed _ _).append (.sign (by decide) ((allWritten_lexemes b h.2).placed _ _))
  | .conditional c a b, h => by
    rw [Expr.lexemes]
    have hb := AllWritten.sign (s := ":") (by decide) ((allWritten_lexemes b h.2.2).placed .conditional b.level)
    have ha := ((allWritten_lexemes a h.2.1).placed .disjunction a.level).append hb
    exact ((allWritten_lexemes c h.1).placed _ _).append (.sign (by decide) ha)

theorem allWritten_lexemesAll : (es : List Expr) → AreWritable es → AllWritten (lexemesAll es)
  | [], _ => by
    rw [lexemesAll]
    exact allWritten_nil
  | e :: es, h => by
    rw [lexemesAll]
    exact ((allWritten_lexemes e h.1).placed _ _).append (allWritten_lexemesMore es h.2)

theorem allWritten_lexemesMore : (es : List Expr) → AreWritable es → AllWritten (lexemesMore es)
  | [], _ => by
    rw [lexemesMore]
    exact allWritten_nil
  | e :: es, h => by
    rw [lexemesMore]
    exact .sign (by decide) (((allWritten_lexemes e h.1).placed _ _).append (allWritten_lexemesMore es h.2))

end

theorem isPlain_sign : ∀ s ∈ signs, (Lexeme.sign s).isPlain = true := by decide

theorem isPlain_of_isSpelled {l : Lexeme} (h : l.IsSpelled) : l.isPlain = true := by
  cases l with
  | sign s => exact isPlain_sign s h
  | identifier | integer => rfl
  | float | character | string => exact h.elim

/-! ### Round trip -/

/-- A text and a parse tree of the loosest level that spells it. -/
def IsParsed (cs : List Char) (t : ParseTree) : Prop := ∃ ls, Scans cs ls ∧ Derives (.level .comma) t ls

theorem level_rank_le (l : Level) : l.rank ≤ Level.comma.rank := by cases l <;> decide

/-- What is written has a parse tree. -/
theorem exists_isParsed {e : Expr} (h : ∀ l ∈ e.lexemes, l.IsSpelled) : ∃ t, IsParsed (spaced e.lexemes) t := by
  obtain ⟨t, ht⟩ := exists_tree ((reads_lexemes e).within .comma (level_rank_le e.level))
  exact ⟨t, e.lexemes, scans_spaced fun l hl => (h l hl).isFound, ht⟩

/-- A parse tree of what is written stands for the expression. -/
theorem stands_of_isParsed {e : Expr} {t : ParseTree} (h : ∀ l ∈ e.lexemes, l.IsSpelled) (ht : IsParsed (spaced e.lexemes) t) :
    Stands .comma t e.lexemes e := by
  obtain ⟨ls, hscan, hderives⟩ := ht
  obtain rfl := scans_unique hscan (scans_spaced fun l hl => (h l hl).isFound)
  obtain ⟨e', he'⟩ := exists_stands hderives fun l hl => isPlain_of_isSpelled (h l hl)
  rwa [reads_unique he'.reads ((reads_lexemes e).within .comma (level_rank_le e.level))] at he'

/-- The text of an expression has a parse tree, and from each of its parse trees, below an open node that takes one more
child, one node is built, of the form of the expression. -/
theorem walk_spaced (e : Expr) (h : e.IsWritable) :
    (∃ t, IsParsed (spaced e.lexemes) t) ∧
      ∀ t, IsParsed (spaced e.lexemes) t → ∀ (b : Builder) (o : Open) (rest : List Open), b.opened = o :: rest → o.Room 1 →
        ∃ next n, b.walk t = .ok { b with next, opened := o.push n :: rest } ∧ n.outline = e.outline := by
  have hwritten := allWritten_lexemes e h
  have hspelled : ∀ l ∈ e.lexemes, l.IsSpelled := fun l hl => (hwritten l hl).1
  refine ⟨exists_isParsed hspelled, ?_⟩
  intro t ht b o rest hb hroom
  have hgrows := (stands_of_isParsed hspelled ht).grows fun l hl => (hwritten l hl).2
  obtain ⟨next, ns, parents, hrun, hns, -⟩ := hgrows { builder := b } o rest hb hroom (by simp)
  obtain ⟨n, rfl, hn⟩ := List.map_eq_singleton_iff.1 hns
  have ho : o.mapKind Tuning.none.map = o := by cases o <;> rfl
  refine ⟨next, n, ?_, hn⟩
  rw [Open.push_eq_append, ← ho]
  exact Walker.walk_eq_ok hrun

/-- An expression with operators of most levels. -/
def nested : Expr :=
  .assign (.prefixed .dereference (.suffixed .increment (.name "p")))
    (.conditional (.binary (.compare .lt) (.binary (.arith .sub) (.name "a") (.binary (.arith .sub) (.name "b") (.int 1))) (.int 2))
      (.call "f" [.binary .comma (.name "a") (.name "b"), .assign (.name "c") (.int 3)])
      (.binary (.arith .mul) (.prefixed (.unary .minus) (.cast .int 1 (.subscript (.name "q") (.assign (.name "i") (.int 0)))))
        (.conditional (.name "a") (.name "b") (.name "c"))))

theorem walk_nested :
    ∃ t next n, IsParsed "* p ++ = a - ( b - 1 ) < 2 ? f ( ( a , b ) , c = 3 ) : - ( int * ) q [ i = 0 ] * ( a ? b : c )".toList t ∧
      Builder.walk { opened := [.part .condition #[]] } t = .ok { next, opened := [.part .condition #[n]] } ∧
        n.outline = nested.outline := by
  have hname : ∀ x ∈ ["a", "b", "c", "f", "i", "p", "q"], IsName x := by
    simp only [IsName]
    decide +kernel
  have hsmall : ∀ value < 10, value < 10 ^ maxDigits := fun value h => Nat.lt_of_lt_of_le h (Nat.le_self_pow (by decide) 10)
  have hwritable : nested.IsWritable := by
    simp [nested, Expr.IsWritable, AreWritable, hname, hsmall]
  have htext : spaced nested.lexemes =
      "* p ++ = a - ( b - 1 ) < 2 ? f ( ( a , b ) , c = 3 ) : - ( int * ) q [ i = 0 ] * ( a ? b : c )".toList := by
    decide +kernel
  obtain ⟨⟨t, ht⟩, hwalk⟩ := walk_spaced nested hwritable
  obtain ⟨next, n, hbuilt, hn⟩ := hwalk t ht { opened := [.part .condition #[]] } _ _ rfl trivial
  exact ⟨t, next, n, htext ▸ ht, hbuilt, hn⟩

/-! ### Long integers -/

/-- An integer that is too long has parse trees, but nothing is built from them. -/
theorem walk_long_literal :
    (∃ t, IsParsed (spaced (Expr.int (10 ^ maxDigits)).lexemes) t) ∧
      ∀ t, IsParsed (spaced (Expr.int (10 ^ maxDigits)).lexemes) t → ∀ b : Builder, b.opened ≠ [] →
        b.walk t = .error .malformed := by
  have hspelled : ∀ l ∈ (Expr.int (10 ^ maxDigits)).lexemes, l.IsSpelled := by
    rw [Expr.lexemes]
    exact List.forall_mem_singleton.2 (isInteger_toString _)
  refine ⟨exists_isParsed hspelled, ?_⟩
  intro t ht b hb
  have hrefused := (stands_of_isParsed hspelled ht).refused _ .malformed (by rw [Expr.lexemes])
    (by rw [integerKind_toString, if_neg (Nat.lt_irrefl _)]) b
  rwa [if_neg (by simpa using hb)] at hrefused

end MiniC.Phrase
