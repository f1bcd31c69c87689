import MiniC.Proofs.Phrase.Writing

/-!
# From text to lexemes

The lexical rules of the grammar, in their order, as a table of patterns. A text is cut into lexemes from left to right:
the longest prefix that some pattern accepts comes next, and the first such pattern says what it is; blanks and comments
are skipped. There is at most one way to do this (`scans_unique`), and lexemes that are found alone are found again when
they are written with single blanks between them (`scans_spaced`).
-/

namespace MiniC.Phrase

open Bool (and_eq_true or_eq_true or_eq_true_iff)

variable {l : Lexeme} {cs : List Char} {p : Pattern} {c : Char}

/-- A lexical rule. -/
structure Pattern where
  typeName : String
  accepts : List Char → Bool

/-! ### The patterns -/

def isBlank (c : Char) : Bool := c = ' ' || c = '\t' || c = '\r' || c = '\n'

def isWordStart (c : Char) : Bool := c.isAlpha || c = '_'

def isWordChar (c : Char) : Bool := c.isAlpha || c.isDigit || c = '_' || c = '\\'

def isLineComment : List Char → Bool
  | c :: d :: cs => c = '/' && d = '/' && cs.all fun c => c != '\r' && c != '\n'
  | _ => false

/-- Text up to the first end of a comment. -/
def endsComment : List Char → Bool
  | ['*', '/'] => true
  | '*' :: '/' :: _ => false
  | _ :: cs => endsComment cs
  | [] => false

def isBlockComment : List Char → Bool
  | c :: d :: cs => c = '/' && d = '*' && endsComment cs
  | _ => false

def isInteger (cs : List Char) : Bool := !cs.isEmpty && cs.all Char.isDigit

def isExponent : List Char → Bool
  | c :: cs => (c = 'e' || c = 'E') && (isInteger cs || match cs with
    | d :: ds => (d = '+' || d = '-') && isInteger ds
    | [] => false)
  | [] => false

def isFloat (cs : List Char) : Bool :=
  isInteger (cs.takeWhile Char.isDigit) && match cs.dropWhile Char.isDigit with
    | '.' :: ds => isInteger (ds.takeWhile Char.isDigit) &&
      ((ds.dropWhile Char.isDigit).isEmpty || isExponent (ds.dropWhile Char.isDigit))
    | ds => isExponent ds

def isIdentifier : List Char → Bool
  | c :: cs => isWordStart c && cs.all isWordChar
  | [] => false

def isCharacter : List Char → Bool
  | c :: cs => c = '\'' && cs.getLast? = some '\'' && (cs.length = 2 || cs.length = 3 && cs.head? = some '\\')
  | [] => false

/-- The inside of a text in quotes, with its last quote. -/
def endsString : List Char → Bool
  | ['"'] => true
  | '\\' :: _ :: cs => endsString cs
  | c :: cs => c != '\\' && c != '"' && c != '\r' && c != '\n' && endsString cs
  | [] => false

def isString : List Char → Bool
  | c :: cs => c = '"' && endsString cs
  | [] => false

/-- The texts that the grammar spells out. -/
def literals : List String :=
  [",", "=", "?", ":", "||", "&&", "==", "!=", "<", "<=", ">", ">=", "+", "-", "*", "/", "%", "++", "--", "&", "!", "[", "]",
    "(", ")", ";", "#include", ".", "\x7b", "\x7d", "char", "float", "int", "void", "const", "volatile", "mutable", "if",
    "else", "do", "while", "for", "break", "continue", "return"]

def patterns : List Pattern :=
  literals.map (fun s => ⟨(Lexeme.sign s).typeName, (· == s.toList)⟩)
    ++ [⟨"COMMENT", isLineComment⟩, ⟨"MULTICOMMENT", isBlockComment⟩, ⟨"INTEGER", isInteger⟩, ⟨"FLOAT", isFloat⟩,
      ⟨"IDENTIFIER", isIdentifier⟩, ⟨"CHARACTER", isCharacter⟩, ⟨"STRING", isString⟩,
      ⟨"WS", fun cs => !cs.isEmpty && cs.all isBlank⟩]

set_option maxRecDepth 4000 in
/-- The patterns stand in the order of the grammar's own types of tokens. -/
theorem tokenType?_patterns :
    patterns.map (fun p => Grammar.c.tokenType? p.typeName) = (List.range 53).map fun i => some (i + 1 : Int) := by
  decide +kernel

def skipped : List String := ["COMMENT", "MULTICOMMENT", "WS"]

/-- A prefix comes next: a pattern accepts it, and none accepts a longer one. -/
structure Next (cs front : List Char) (p : Pattern) : Prop where
  isPrefix : front <+: cs
  first : patterns.find? (·.accepts front) = some p
  longest : ∀ longer, longer <+: cs → front.length < longer.length → patterns.find? (·.accepts longer) = none

/-- A text is cut into lexemes. -/
inductive Scans : List Char → List Lexeme → Prop
  | nil : Scans [] []
  | skip {front rest : List Char} {p : Pattern} {ls : List Lexeme} :
      Next (front ++ rest) front p → p.typeName ∈ skipped → Scans rest ls → Scans (front ++ rest) ls
  | token {front rest : List Char} {p : Pattern} {l : Lexeme} {ls : List Lexeme} :
      Next (front ++ rest) front p → p.typeName ∉ skipped → l.typeName = p.typeName → l.text = String.ofList front →
      Scans rest ls → Scans (front ++ rest) (l :: ls)

/-! ### There is one way -/

theorem typeName_ne_of_quote {s : String} {name : String} (h : name.toList.head? ≠ some '\'') :
    (Lexeme.sign s).typeName ≠ name := by
  rintro rfl
  exact h (by simp [Lexeme.typeName])

/-- The type and the text of a token say which lexeme it is. -/
theorem Lexeme.eq_of_typeName {l' : Lexeme} (htype : l.typeName = l'.typeName) (htext : l.text = l'.text) : l = l' := by
  cases l with
  | sign s =>
    cases l' with
    | sign s' => exact congrArg Lexeme.sign htext
    | _ => exact absurd htype (typeName_ne_of_quote (by rw [typeName]; decide))
  | _ =>
    all_goals
      cases l' with
      | sign s' => exact absurd htype.symm (typeName_ne_of_quote (by rw [typeName]; decide))
      | _ => simp_all [typeName, text]

theorem Next.unique {front front' : List Char} {p' : Pattern} (h : Next cs front p) (h' : Next cs front' p') :
    front = front' ∧ p = p' := by
  have hnot : ¬ front.length < front'.length := fun hlt => by simpa [h'.first] using h.longest _ h'.isPrefix hlt
  have hnot' : ¬ front'.length < front.length := fun hlt => by simpa [h.first] using h'.longest _ h.isPrefix hlt
  have hfront : front = front' := by
    obtain ⟨rest, rfl⟩ := h.isPrefix
    obtain ⟨rest', hrest⟩ := h'.isPrefix
    exact (List.append_inj hrest (by omega)).1.symm
  subst hfront
  exact ⟨rfl, Option.some.inj (h.first.symm.trans h'.first)⟩

theorem find?_nil : patterns.find? (·.accepts []) = none := by decide

theorem Next.ne_nil : ¬ Next cs [] p := by
  intro h
  simpa [find?_nil] using h.first

theorem scans_unique {ls ls' : List Lexeme} (h : Scans cs ls) (h' : Scans cs ls') : ls = ls' := by
  induction h generalizing ls' with
  | nil =>
    generalize hcs : ([] : List Char) = cs at h'
    cases h' with
    | nil => rfl
    | skip hnext | token hnext =>
      obtain ⟨rfl, -⟩ := List.append_eq_nil_iff.1 hcs.symm
      exact absurd hnext Next.ne_nil
  | @skip front rest p ls hnext hskip _ ih =>
    generalize hcs : front ++ rest = cs at h' hnext
    cases h' with
    | nil =>
      obtain ⟨rfl, -⟩ := List.append_eq_nil_iff.1 hcs
      exact absurd hnext Next.ne_nil
    | skip hnext' hskip' hrest' =>
      obtain ⟨rfl, rfl⟩ := hnext.unique hnext'
      obtain rfl := List.append_cancel_left hcs
      exact ih hrest'
    | token hnext' hskip' =>
      obtain ⟨rfl, rfl⟩ := hnext.unique hnext'
      exact absurd hskip hskip'
  | @token front rest p l ls hnext hskip htype htext _ ih =>
    generalize hcs : front ++ rest = cs at h' hnext
    cases h' with
    | nil =>
      obtain ⟨rfl, -⟩ := List.append_eq_nil_iff.1 hcs
      exact absurd hnext Next.ne_nil
    | skip hnext' hskip' =>
      obtain ⟨rfl, rfl⟩ := hnext.unique hnext'
      exact absurd hskip' hskip
    | token hnext' hskip' htype' htext' hrest' =>
      obtain ⟨rfl, rfl⟩ := hnext.unique hnext'
      obtain rfl := List.append_cancel_left hcs
      rw [Lexeme.eq_of_typeName (htype.trans htype'.symm) (htext.trans htext'.symm), ih hrest']

/-! ### Patterns and blanks -/

/-- How a text with a blank in it may begin, for a pattern to accept it. -/
def opensLong : List Char → Bool
  | c :: cs => c = '/' && (cs.head? = some '/' || cs.head? = some '*') || c = '\'' || c = '"' || isBlank c
  | [] => false

set_option maxRecDepth 4000 in
theorem blank_not_mem_literals : ∀ s ∈ literals, ' ' ∉ s.toList := by decide

theorem blank_not_mem_integer (h : isInteger cs = true) : ' ' ∉ cs := by
  intro hmem
  simp only [isInteger, and_eq_true, List.all_eq_true] at h
  exact absurd (h.2 ' ' hmem) (by decide)

theorem blank_not_mem_exponent (h : isExponent cs = true) : ' ' ∉ cs := by
  unfold isExponent at h
  split at h
  · rename_i c cs
    simp only [and_eq_true, or_eq_true, decide_eq_true_eq] at h
    obtain ⟨hc, h⟩ := h
    have hne : ' ' ≠ c := by rcases hc with rfl | rfl <;> decide
    simp only [List.mem_cons, hne, false_or]
    obtain h | h := h
    · exact blank_not_mem_integer h
    · split at h
      · rename_i d ds
        simp only [and_eq_true, or_eq_true, decide_eq_true_eq] at h
        have hd : ' ' ≠ d := by rcases h.1 with rfl | rfl <;> decide
        simpa [hd] using blank_not_mem_integer h.2
      · simp at h
  · simp at h

theorem blank_not_mem_float (h : isFloat cs = true) : ' ' ∉ cs := by
  rw [← List.takeWhile_append_dropWhile (p := Char.isDigit) (l := cs)]
  simp only [isFloat, and_eq_true] at h
  rw [List.mem_append, not_or]
  refine ⟨blank_not_mem_integer h.1, ?_⟩
  obtain ⟨-, h⟩ := h
  split at h
  · rename_i ds hds
    rw [hds, List.mem_cons, not_or]
    simp only [and_eq_true, or_eq_true, List.isEmpty_iff] at h
    refine ⟨by decide, ?_⟩
    rw [← List.takeWhile_append_dropWhile (p := Char.isDigit) (l := ds), List.mem_append, not_or]
    refine ⟨blank_not_mem_integer h.1, ?_⟩
    obtain hnil | hexp := h.2
    · simp [hnil]
    · exact blank_not_mem_exponent hexp
  · exact blank_not_mem_exponent h

theorem blank_not_mem_identifier (h : isIdentifier cs = true) : ' ' ∉ cs := by
  cases cs with
  | nil => simp
  | cons c cs =>
    simp only [isIdentifier, and_eq_true, List.all_eq_true] at h
    rw [List.mem_cons, not_or]
    constructor
    · rintro rfl
      exact absurd h.1 (by decide)
    · intro hmem
      exact absurd (h.2 ' ' hmem) (by decide)

theorem opensLong_of_blank (h : (!cs.isEmpty && cs.all isBlank) = true) : opensLong cs = true := by
  cases cs with
  | nil => simp at h
  | cons c cs =>
    simp only [List.all_cons, and_eq_true] at h
    simp [opensLong, h.2.1]

theorem opensLong_of_comment (h : (isLineComment cs || isBlockComment cs) = true) : opensLong cs = true := by
  match cs with
  | [] | [_] => exact absurd h (by simp [isLineComment, isBlockComment])
  | c :: d :: cs =>
    simp only [isLineComment, isBlockComment, or_eq_true, and_eq_true, decide_eq_true_eq] at h
    obtain ⟨⟨rfl, rfl⟩, -⟩ | ⟨⟨rfl, rfl⟩, -⟩ := h <;> rfl

theorem opensLong_of_quote (h : (isCharacter cs || isString cs) = true) : opensLong cs = true := by
  cases cs with
  | nil => simp [isCharacter, isString] at h
  | cons c cs =>
    simp only [isCharacter, isString, or_eq_true, and_eq_true, decide_eq_true_eq] at h
    obtain ⟨⟨rfl, -⟩, -⟩ | ⟨rfl, -⟩ := h <;> simp [opensLong]

/-- Texts with blanks in them. -/
def isLong (cs : List Char) : Bool :=
  isLineComment cs || isBlockComment cs || (isCharacter cs || isString cs) || !cs.isEmpty && cs.all isBlank

theorem opensLong_of_isLong (h : isLong cs = true) : opensLong cs = true := by
  obtain h | hblank := or_eq_true_iff.1 h
  · obtain hcomment | hquote := or_eq_true_iff.1 h
    · exact opensLong_of_comment hcomment
    · exact opensLong_of_quote hquote
  · exact opensLong_of_blank hblank

theorem isLong_of_accepts (hp : p ∈ patterns) (h : p.accepts cs = true) (hblank : ' ' ∈ cs) : isLong cs = true := by
  rw [patterns, List.mem_append] at hp
  obtain hp | hp := hp
  · obtain ⟨s, hs, rfl⟩ := List.mem_map.1 hp
    obtain rfl := eq_of_beq h
    exact absurd hblank (blank_not_mem_literals s hs)
  · simp only [List.mem_cons, List.not_mem_nil, or_false] at hp
    obtain rfl | rfl | rfl | rfl | rfl | rfl | rfl | rfl := hp
    · simp [isLong, show isLineComment cs = true from h]
    · simp [isLong, show isBlockComment cs = true from h]
    · exact absurd hblank (blank_not_mem_integer h)
    · exact absurd hblank (blank_not_mem_float h)
    · exact absurd hblank (blank_not_mem_identifier h)
    · simp [isLong, show isCharacter cs = true from h]
    · simp [isLong, show isString cs = true from h]
    · exact or_eq_true_iff.2 (.inr h)

/-! ### What is written is found again -/

/-- An identifier that is no word of the grammar. -/
def IsName (x : String) : Prop := isIdentifier x.toList = true ∧ x ∉ literals

def Lexeme.IsSpelled : Lexeme → Prop
  | sign s => s ∈ signs
  | identifier x => IsName x
  | integer s => isInteger s.toList = true
  | _ => False

theorem find?_literals (h : ∀ s ∈ literals, s.toList ≠ cs) :
    (literals.map fun s => (⟨(Lexeme.sign s).typeName, (· == s.toList)⟩ : Pattern)).find? (·.accepts cs) = none := by
  refine List.find?_eq_none.2 fun p hp => ?_
  obtain ⟨s, hs, rfl⟩ := List.mem_map.1 hp
  simpa using (h s hs).symm

set_option maxRecDepth 4000 in
theorem find?_sign :
    ∀ s ∈ signs, (patterns.find? (·.accepts s.toList)).map (·.typeName) = some (Lexeme.sign s).typeName := by
  decide

theorem le_of_isWordStart (h : isWordStart c = true) : 65 ≤ c.toNat := by
  delta isWordStart Char.isAlpha Char.isUpper Char.isLower at h
  simp only [or_eq_true, and_eq_true, decide_eq_true_eq, ge_iff_le, UInt32.le_iff_toNat_le] at h
  rcases h with (h | h) | rfl
  · exact h.1
  · exact Nat.le_trans (by decide) h.1
  · decide

theorem le_of_isDigit (h : c.isDigit = true) : 48 ≤ c.toNat ∧ c.toNat ≤ 57 := Char.isDigit_iff_toNat.1 h

theorem not_isDigit_of_isWordStart (h : isWordStart c = true) : c.isDigit = false := by
  have hle := le_of_isWordStart h
  by_contra hd
  have := (le_of_isDigit (by simpa using hd)).2
  omega

/-- The characters that words and numbers begin with open no comment and no text in quotes. -/
theorem opensLong_eq_false (cs : List Char) (h : 48 ≤ c.toNat) : opensLong (c :: cs) = false := by
  have hne : ∀ d : Char, d.toNat < 48 → c ≠ d := by
    rintro d hd rfl
    omega
  simp [opensLong, isBlank, hne '/' (by decide), hne '\'' (by decide), hne '"' (by decide), hne ' ' (by decide),
    hne '\t' (by decide), hne '\r' (by decide), hne '\n' (by decide)]

theorem not_comment (h : opensLong cs = false) : isLineComment cs = false ∧ isBlockComment cs = false := by
  rw [← Bool.or_eq_false_iff, Bool.eq_false_iff]
  intro hcomment
  exact absurd (opensLong_of_comment hcomment) (by simp [h])

theorem find?_identifier {x : String} (h : IsName x) :
    (patterns.find? (·.accepts x.toList)).map (·.typeName) = some "IDENTIFIER" := by
  have hlit : ∀ s ∈ literals, s.toList ≠ x.toList := fun s hs heq => h.2 (String.toList_inj.1 heq ▸ hs)
  have hword := h.1
  rw [patterns, List.find?_append, find?_literals hlit]
  generalize x.toList = cs at hword
  cases cs with
  | nil => simp [isIdentifier] at hword
  | cons c cs =>
    have hstart : isWordStart c = true := by
      simp only [isIdentifier, and_eq_true] at hword
      exact hword.1
    have hdigit := not_isDigit_of_isWordStart hstart
    have hle := le_of_isWordStart hstart
    obtain ⟨hline, hblock⟩ := not_comment (opensLong_eq_false (c := c) cs (by omega))
    simp [List.find?, hline, hblock, isInteger, isFloat, hdigit, hword]

set_option maxRecDepth 4000 in
theorem not_isInteger_literals : ∀ s ∈ literals, isInteger s.toList = false := by decide

theorem find?_integer {s : String} (h : isInteger s.toList = true) :
    (patterns.find? (·.accepts s.toList)).map (·.typeName) = some "INTEGER" := by
  have hlit : ∀ s' ∈ literals, s'.toList ≠ s.toList := by
    intro s' hs' heq
    simp [← heq, not_isInteger_literals s' hs'] at h
  rw [patterns, List.find?_append, find?_literals hlit]
  generalize s.toList = cs at h
  cases cs with
  | nil => simp [isInteger] at h
  | cons c cs =>
    have hdigit : c.isDigit = true := by
      simp only [isInteger, List.all_cons, and_eq_true] at h
      exact h.2.1
    obtain ⟨hline, hblock⟩ := not_comment (opensLong_eq_false (c := c) cs (le_of_isDigit hdigit).1)
    simp [List.find?, hline, hblock, h]

/-- A lexeme that has the spelling of its type is found by its type. -/
theorem find?_spelled (h : l.IsSpelled) :
    (patterns.find? (·.accepts l.text.toList)).map (·.typeName) = some l.typeName := by
  cases l with
  | sign s => exact find?_sign s h
  | identifier x => exact find?_identifier h
  | integer s => exact find?_integer h
  | float | character | string => exact h.elim

set_option maxRecDepth 4000 in
theorem sign_not_skipped : ∀ s ∈ signs, (Lexeme.sign s).typeName ∉ skipped := by decide

theorem typeName_not_skipped (h : l.IsSpelled) : l.typeName ∉ skipped := by
  cases l with
  | sign s => exact sign_not_skipped s h
  | _ => simp [Lexeme.typeName, skipped]

/-! ### Lexemes that stand alone -/

/-- A text that nothing begins with that has blanks in it and is longer. -/
structure Closed (cs : List Char) : Prop where
  start : ∃ c cs', cs = c :: cs' ∧ isBlank c = false
  isLong : ∀ more, isLong (cs ++ ' ' :: more) = false

theorem closed_of_opensLong (hne : cs ≠ []) (h : ∀ more, opensLong (cs ++ ' ' :: more) = false) : Closed cs := by
  constructor
  · obtain ⟨c, cs, rfl⟩ := List.exists_cons_of_ne_nil hne
    have hopens := h []
    simp only [List.cons_append, opensLong, Bool.or_eq_false_iff] at hopens
    exact ⟨c, cs, rfl, hopens.2⟩
  · intro more
    rw [Bool.eq_false_iff]
    intro hlong
    exact absurd (opensLong_of_isLong hlong) (by simp [h more])

theorem closed_of_le (h : 48 ≤ c.toNat) (cs : List Char) : Closed (c :: cs) :=
  closed_of_opensLong (List.cons_ne_nil c cs) fun _ => opensLong_eq_false _ h

set_option maxRecDepth 4000 in
theorem opensLong_literal : ∀ s ∈ literals, s.toList ≠ [] ∧ opensLong (s.toList ++ [' ']) = false := by decide

theorem closed_literal {s : String} (h : s ∈ literals) : Closed s.toList := by
  obtain ⟨hne, hshort⟩ := opensLong_literal s h
  refine closed_of_opensLong hne fun more => ?_
  -- only the first two characters count
  match s.toList, hne, hshort with
  | [_], _, hshort => exact hshort
  | _ :: _ :: _, _, hshort => exact hshort

theorem closed_of_digits (h : isInteger (cs.takeWhile Char.isDigit) = true) : Closed cs := by
  cases cs with
  | nil => simp [isInteger] at h
  | cons c cs =>
    by_cases hc : c.isDigit = true
    · exact closed_of_le (le_of_isDigit hc).1 cs
    · simp [isInteger, hc] at h

theorem closed_integer (h : isInteger cs = true) : Closed cs := by
  cases cs with
  | nil => simp [isInteger] at h
  | cons c cs =>
    simp only [isInteger, List.all_cons, and_eq_true] at h
    exact closed_of_le (le_of_isDigit h.2.1).1 cs

theorem closed_identifier (h : isIdentifier cs = true) : Closed cs := by
  cases cs with
  | nil => simp [isIdentifier] at h
  | cons c cs =>
    simp only [isIdentifier, and_eq_true] at h
    have := le_of_isWordStart h.1
    exact closed_of_le (by omega) cs

theorem isLong_quote (h : c = '\'' ∨ c = '"') (cs : List Char) :
    isLong (c :: cs) = (isCharacter (c :: cs) || isString (c :: cs)) := by
  obtain rfl | rfl := h <;> cases cs <;> simp [isLong, isLineComment, isBlockComment, isBlank]

theorem closed_character (h : isCharacter cs = true) : Closed cs := by
  cases cs with
  | nil => simp [isCharacter] at h
  | cons c cs =>
    simp only [isCharacter, and_eq_true, or_eq_true, decide_eq_true_eq] at h
    obtain ⟨⟨rfl, -⟩, hlength⟩ := h
    refine ⟨⟨_, _, rfl, rfl⟩, fun more => ?_⟩
    rw [List.cons_append, isLong_quote (.inl rfl)]
    cases more with
    | nil => simp [isCharacter, isString]
    | cons d more =>
      simp [isCharacter, isString]
      omega

theorem endsString_append (h : endsString cs = true) (more : List Char) : endsString (cs ++ ' ' :: more) = false := by
  fun_induction endsString cs with
  | case1 => simp [endsString]
  | case2 c cs ih => simpa [endsString] using ih h
  | case3 c cs h1 h2 ih =>
    simp only [and_eq_true] at h
    rw [List.cons_append, endsString.eq_def]
    split <;> simp_all
  | case4 => simp at h

theorem closed_string (h : isString cs = true) : Closed cs := by
  cases cs with
  | nil => simp [isString] at h
  | cons c cs =>
    simp only [isString, and_eq_true, decide_eq_true_eq] at h
    obtain ⟨rfl, h⟩ := h
    refine ⟨⟨_, _, rfl, rfl⟩, fun more => ?_⟩
    rw [List.cons_append, isLong_quote (.inr rfl)]
    simp [isCharacter, isString, endsString_append h more]

/-- What is no blank and no comment is closed. -/
theorem closed_of_accepts (hp : p ∈ patterns) (hskip : p.typeName ∉ skipped) (h : p.accepts cs = true) : Closed cs := by
  rw [patterns, List.mem_append] at hp
  obtain hp | hp := hp
  · obtain ⟨s, hs, rfl⟩ := List.mem_map.1 hp
    obtain rfl := eq_of_beq h
    exact closed_literal hs
  · simp only [List.mem_cons, List.not_mem_nil, or_false] at hp
    obtain rfl | rfl | rfl | rfl | rfl | rfl | rfl | rfl := hp
    · simp [skipped] at hskip
    · simp [skipped] at hskip
    · exact closed_integer h
    · simp only [isFloat, and_eq_true] at h
      exact closed_of_digits h.1
    · exact closed_identifier h
    · exact closed_character h
    · exact closed_string h
    · simp [skipped] at hskip

/-- A longer prefix than the part before a blank has the blank in it. -/
theorem exists_of_prefix_blank {front longer : List Char} (hfront : longer <+: front ++ ' ' :: cs)
    (hlength : front.length < longer.length) : ∃ more, longer = front ++ ' ' :: more := by
  obtain ⟨more, rfl⟩ := List.prefix_of_prefix_length_le (List.prefix_append front (' ' :: cs)) hfront (Nat.le_of_lt hlength)
  rw [List.prefix_append_right_inj] at hfront
  cases more with
  | nil => simp at hlength
  | cons c more => exact ⟨more, by rw [(List.cons_prefix_cons.1 hfront).1]⟩

/-- A lexeme is found in its own text. -/
def Lexeme.IsFound (l : Lexeme) : Prop :=
  ∃ p, patterns.find? (·.accepts l.text.toList) = some p ∧ p.typeName ∉ skipped ∧ p.typeName = l.typeName

theorem isFound_of_find? (h : (patterns.find? (·.accepts l.text.toList)).map (·.typeName) = some l.typeName)
    (hskip : l.typeName ∉ skipped) : l.IsFound := by
  obtain ⟨p, hp, htype⟩ := Option.map_eq_some_iff.1 h
  exact ⟨p, hp, htype ▸ hskip, htype⟩

theorem Lexeme.IsSpelled.isFound (h : l.IsSpelled) : l.IsFound := isFound_of_find? (find?_spelled h) (typeName_not_skipped h)

theorem Lexeme.IsFound.closed (h : l.IsFound) : Closed l.text.toList := by
  obtain ⟨p, hp, hskip, -⟩ := h
  exact closed_of_accepts (List.mem_of_find?_eq_some hp) hskip (by simpa using List.find?_some hp)

/-- Behind a lexeme there is nothing, or a blank. -/
theorem Lexeme.IsFound.scans {rest : List Char} {ls : List Lexeme} (h : l.IsFound) (hrest : rest = [] ∨ ∃ cs, rest = ' ' :: cs)
    (hls : Scans rest ls) : Scans (l.text.toList ++ rest) (l :: ls) := by
  have hclosed := h.closed
  obtain ⟨p, hp, hskip, htype⟩ := h
  refine .token ⟨List.prefix_append _ _, hp, fun longer hfront hlength => ?_⟩ hskip htype.symm (by simp) hls
  obtain rfl | ⟨cs, rfl⟩ := hrest
  · have := hfront.length_le
    simp only [List.append_nil] at this
    omega
  · obtain ⟨more, rfl⟩ := exists_of_prefix_blank hfront hlength
    refine List.find?_eq_none.2 fun p hp haccept => ?_
    simpa [hclosed.isLong more] using isLong_of_accepts hp haccept (by simp)

/-- A single blank before a lexeme is read over. -/
theorem next_blank (h : isBlank c = false) (cs : List Char) :
    ∃ p, Next (' ' :: c :: cs) [' '] p ∧ p.typeName ∈ skipped := by
  have hfind : (patterns.find? (·.accepts [' '])).map (·.typeName) = some "WS" := by decide
  obtain ⟨p, hp, htype⟩ := Option.map_eq_some_iff.1 hfind
  refine ⟨p, ⟨⟨c :: cs, rfl⟩, hp, ?_⟩, by simp [htype, skipped]⟩
  intro longer hfront hlength
  refine List.find?_eq_none.2 fun p hp haccept => ?_
  match longer, hfront, hlength with
  | d :: d' :: more, hfront, _ =>
    obtain ⟨rfl, hrest⟩ := List.cons_prefix_cons.1 hfront
    obtain ⟨rfl, -⟩ := List.cons_prefix_cons.1 hrest
    have hlong := isLong_of_accepts hp haccept List.mem_cons_self
    simp [isLong, isLineComment, isBlockComment, isCharacter, isString, h] at hlong

/-- Lexemes with single blanks between them. -/
def spaced : List Lexeme → List Char
  | [] => []
  | [l] => l.text.toList
  | l :: ls => l.text.toList ++ ' ' :: spaced ls

theorem scans_spaced : ∀ {ls : List Lexeme}, (∀ l ∈ ls, l.IsFound) → Scans (spaced ls) ls
  | [], _ => Scans.nil
  | [l], h => by simpa [spaced] using (h l (by simp)).scans (.inl rfl) .nil
  | l :: l' :: ls, h => by
    have hrest : Scans (spaced (l' :: ls)) (l' :: ls) := scans_spaced fun x hx => h x (List.mem_cons_of_mem _ hx)
    refine (h l (by simp)).scans (.inr ⟨_, rfl⟩) ?_
    obtain ⟨c, cs, htext, hc⟩ := (h l' (by simp)).closed.start
    obtain ⟨cs', hcs'⟩ : ∃ cs', spaced (l' :: ls) = c :: cs' := by
      cases ls with
      | nil => exact ⟨cs, htext⟩
      | cons _ _ => exact ⟨_, by rw [spaced, htext, List.cons_append]; simp⟩
    rw [hcs'] at hrest ⊢
    obtain ⟨p, hnext, hskip⟩ := next_blank hc cs'
    exact @Scans.skip [' '] _ _ _ hnext hskip hrest

theorem length_le_of_scans {ls : List Lexeme} (h : Scans cs ls) (hl : l ∈ ls) : l.text.length ≤ cs.length := by
  induction h with
  | nil => cases hl
  | skip _ _ _ ih =>
    have := ih hl
    simp only [List.length_append]
    omega
  | token _ _ _ htext _ ih =>
    simp only [List.length_append]
    obtain rfl | hl := List.mem_cons.1 hl
    · simp [htext]
    · have := ih hl
      omega

theorem isFound_of_scans (h : Scans l.text.toList [l]) : l.IsFound := by
  generalize hcs : l.text.toList = cs at h
  cases h with
  | @skip front rest p _ hnext _ hrest =>
    have hle := length_le_of_scans hrest (List.mem_singleton_self l)
    have hlength := congrArg List.length hcs
    simp only [String.length_toList, List.length_append] at hlength
    obtain rfl : front = [] := List.length_eq_zero_iff.1 (by omega)
    exact absurd hnext Next.ne_nil
  | @token front rest p _ _ hnext hskip htype htext _ =>
    refine ⟨p, ?_, hskip, htype.symm⟩
    rw [htext, String.toList_ofList]
    exact hnext.first

/-- Texts each of which is one lexeme give these lexemes when they are written with single blanks between them, and nothing
else. -/
theorem scans_spaced_iff {ls ls' : List Lexeme} (h : ∀ l ∈ ls, Scans l.text.toList [l]) : Scans (spaced ls) ls' ↔ ls' = ls := by
  have hscans : Scans (spaced ls) ls := scans_spaced fun l hl => isFound_of_scans (h l hl)
  constructor
  · intro h'
    exact scans_unique h' hscans
  · rintro rfl
    exact hscans

/-- Lexemes with a blank, and with what could open a comment. -/
def quotedLexemes : List Lexeme := [.character "' '", .string "\"/*\"", .sign "/", .sign "do"]

theorem scans_spaced_iff_quoted : Scans "' ' \"/*\" / do".toList quotedLexemes := by
  have hfound : ∀ l ∈ quotedLexemes,
      (patterns.find? (·.accepts l.text.toList)).map (·.typeName) = some l.typeName ∧ l.typeName ∉ skipped := by decide
  have halone : ∀ l ∈ quotedLexemes, Scans l.text.toList [l] := by
    intro l hl
    simpa using (isFound_of_find? (hfound l hl).1 (hfound l hl).2).scans (.inl rfl) .nil
  exact (scans_spaced_iff halone).2 rfl

end MiniC.Phrase
