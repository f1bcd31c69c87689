import MiniC.Compile

/-!
# Sizes of texts

What the stages of the compiler make of a row of texts: how many tokens they have, how large their token streams are,
of how many parts their programs consist, and how long the listings of their syntax trees are. Messages about the texts are collected in order.
-/

namespace MiniC.Corpus

abbrev Measure := String → Except Fault Nat × Array String

/-- The size of all texts together, up to the first that has none. -/
def total (m : Measure) : List String → Except Fault Nat × Array String
  | [] => (pure 0, #[])
  | text :: rest =>
    match m text with
    | (.error e, log) => (.error e, log)
    | (.ok n, log) =>
      let (r, more) := total m rest
      (r.map (n + ·), log ++ more)

def tokenCount : Measure := fun text =>
  let (r, s) := TokenStream.fill.run.run (.ofScanner (.ofString Grammar.c.lexer text) (some 0))
  (r.map fun _ => s.tokens.size, s.log)

def streamSize : TokenM Nat := do
  let text ← TokenStream.allText
  return (← get).tokens.size + text.length

/-- The size of the stream of a text and of the stream that its tokens make up as a list, with the line and the
column at which that list begins. -/
def replaySize : Measure := fun text =>
  let (r, s) := streamSize.run.run (.ofScanner (.ofString Grammar.c.lexer text) (some 0))
  let again := ListSource.withHidden s.tokens [] text
  (do
    let first ← r
    let second ← (streamSize.run.run (.ofList again (some 0))).1
    return first + second + (again.line.getD 0 + (← again.column)).toNat, s.log)

def partCount : Measure := fun text =>
  let (r, log, _) := parseProgram text
  (r.map (·.children.length), log)

def listingLength : Measure := fun text =>
  let (r, log, _) := parseProgram text
  (r.bind fun t => return (← (← Node.ofParseTree t).listing).length, log)

def named : String → Except Fault Measure
  | "lex" => pure tokenCount
  | "parse" => pure partCount
  | "build_ast" => pure listingLength
  | "token_stream" => pure replaySize
  | _ => throw .missing

end MiniC.Corpus
