import MiniC.Parse.State
import MiniC.Report.Parts

/-!
# Reports on predictions

What a parser remembers about its decisions, and what was printed while it learned it.
-/

namespace MiniC.Parser

def remembered (p : Parser) : List (String × Datum) :=
  let used := p.automata.toList.filter (!·.nodes.isEmpty)
  let shown (a : Automaton) := (a.decision, a.nodes.size, a.leveled, listing <$> a.listing (some p.grammar.vocabulary))
  let alts (a : Automaton) := ((a.nodes.toList.take 4).map (·.set.alts)).filter (!·.isEmpty)
  let scanned := (p.stream.scanner?.map (·.printed)).getD #[]
  [field "errors" (printedLines p.stream.log), field "stdout" (printedLines (scanned ++ p.printed)),
    field "count" p.errors, field "dfa" (used.map shown), field "alts" (used.map alts)]

/-- What the scanner of a parser remembers about the characters of tokens. -/
def lexerListing (p : Parser) : Except Fault (List String) :=
  listing <$> ((p.stream.scanner?.bind (·.automata[0]?)).getD default).listing

def dumped (p : Parser) : List (String × Datum) :=
  let all := p.automata.toList
  let (text, failed) := Automaton.dump p.grammar.vocabulary all
  [field "dump" (failed.elim (datum "done") Datum.fault), field "dumped" (listing text),
    field "strings" (all.mapM (·.listing none))]

end MiniC.Parser
