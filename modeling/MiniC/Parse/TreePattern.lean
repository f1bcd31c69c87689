import MiniC.Grammar.Basic

/-!
# Patterns for parse trees

A pattern is a parse tree in which some tokens are replaced by tags. A tag fits every token of its type and
collects the ones it met under the name of the type, and under its label if it has one. `TreePattern.fit` compares
a tree with a pattern: nodes fit if they have as many children and these fit, whatever their rules are.
-/

namespace MiniC

structure TokenTag where
  name : String
  type : Int
  label : Option String
  deriving DecidableEq, Repr, Inhabited

namespace TokenTag

def text (t : TokenTag) : String :=
  match t.label with
  | some label => "<" ++ label ++ ":" ++ t.name ++ ">"
  | none => "<" ++ t.name ++ ">"

def render (t : TokenTag) : String := t.name ++ ":" ++ toString t.type

end TokenTag

inductive TreePattern where
  | token (token : Token)
  | tag (tag : TokenTag)
  | node (children : List TreePattern)
  deriving Inhabited, Repr

/-- How a tree fits a pattern: what the tags met, by name, and the first part of the tree that does not fit. -/
structure PatternMatch where
  found : List (String × List ParseTree) := []
  misfit : Option ParseTree := none
  deriving Inhabited

namespace PatternMatch

def succeeded (m : PatternMatch) : Bool := m.misfit.isNone

def getAll (m : PatternMatch) (name : String) : List ParseTree := (m.found.lookup name).getD []

def get? (m : PatternMatch) (name : String) : Option ParseTree := (m.getAll name).getLast?

def record (m : PatternMatch) (name : String) (t : ParseTree) : PatternMatch :=
  if m.found.any (·.1 == name) then
    { m with found := m.found.map fun (k, ts) => (k, if k == name then ts ++ [t] else ts) }
  else { m with found := m.found ++ [(name, [t])] }

def render (m : PatternMatch) : String :=
  (if m.succeeded then "Match succeeded" else "Match failed") ++ "; found " ++ toString m.found.length ++ " labels"

end PatternMatch

namespace TreePattern

mutual
def ofTree (g : Grammar) (tags : List (String × Option String)) : ParseTree → TreePattern
  | .leaf t _ =>
    match t.text.bind fun text => tags.lookup text with
    | some label => tag ⟨g.tokenName t.type, t.type, label⟩
    | none => token t
  | .node _ cs => node (ofTrees g tags cs)

def ofTrees (g : Grammar) (tags : List (String × Option String)) : List ParseTree → List TreePattern
  | [] => []
  | c :: cs => ofTree g tags c :: ofTrees g tags cs
end

mutual
def tags : TreePattern → List TokenTag
  | token _ => []
  | tag t => [t]
  | node cs => tagsAll cs

def tagsAll : List TreePattern → List TokenTag
  | [] => []
  | c :: cs => tags c ++ tagsAll cs
end

mutual
/-- Compares a tree with a pattern, after what was met before. -/
def fit (m : PatternMatch) : TreePattern → ParseTree → PatternMatch
  | token p, t@(.leaf s _) =>
    if s.type = p.type ∧ s.text.getD "" = p.text.getD "" then m else { m with misfit := some t }
  | tag p, t@(.leaf s _) =>
    if s.type = p.type then
      let m := m.record p.name t
      match p.label with
      | some label => m.record label t
      | none => m
    else { m with misfit := some t }
  | node ps, t@(.node _ cs) =>
    if ps.length = cs.length then fitAll m ps cs else { m with misfit := some t }
  | _, t => { m with misfit := some t }

def fitAll (m : PatternMatch) : List TreePattern → List ParseTree → PatternMatch
  | p :: ps, t :: ts =>
    let m := fit m p t
    if m.succeeded then fitAll m ps ts else m
  | _, _ => m
end

def fit? (pattern : Option TreePattern) (tree : Option ParseTree) : Except Fault PatternMatch :=
  match tree, pattern with
  | none, _ => throw (.illegal "tree cannot be null")
  | _, none => throw (.illegal "patternTree cannot be null")
  | some t, some p => pure (p.fit {} t)

end TreePattern

/-- A match needs a tree, a pattern and a table of labels. -/
def PatternMatch.make? (tree : Option ParseTree) (pattern : Option TreePattern)
    (found : Option (List (String × List ParseTree))) : Except Fault PatternMatch :=
  match tree, pattern, found with
  | none, _, _ => throw (.illegal "tree cannot be null")
  | _, none, _ => throw (.illegal "pattern cannot be null")
  | _, _, none => throw (.illegal "labels cannot be null")
  | _, _, some found => pure { found }

/-- The tag of a rule needs a name, and is not supported beyond that. -/
def ruleTag? (name : String) : Except Fault TokenTag :=
  if name.isEmpty then throw (.illegal "ruleName cannot be null or empty.") else throw .missing

/-- What becomes of the other requests to match a tree: patterns cannot be read from text, since rules cannot be
tagged, and a pattern cannot be asked to match by itself. -/
def TreePattern.requests (tree : ParseTree) (pattern : TreePattern) : List (Except Fault Unit) :=
  let asked {α : Type} (r : Except Fault α) : Except Fault Unit := r.map fun _ => ()
  [throw .missing, throw .missing, throw .unsuitable, asked (fit? (some pattern) none), asked (fit? none (some tree)),
    throw .unsuitable, throw .unsuitable, throw .unsuitable, throw .missing, throw .missing, throw .missing,
    asked (ruleTag? ""), asked (ruleTag? "r"), asked (ruleTag? "r"),
    asked (PatternMatch.make? none (some pattern) (some [])), asked (PatternMatch.make? (some tree) none (some [])),
    asked (PatternMatch.make? (some tree) (some pattern) none)]

end MiniC
