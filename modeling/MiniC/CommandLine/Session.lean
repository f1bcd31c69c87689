import MiniC.CommandLine.Options
import MiniC.Compile

/-!
# Sessions

A session carries out what a command line asks for: it compiles the source and says what is printed and which
files are written.
-/

namespace MiniC.CommandLine

structure Session where
  exitCode : Nat := 0
  fault : Option Fault := none
  printed : String := ""
  messages : Array String := #[]
  /-- A stage of the compilation failed, and the session went on to its end. -/
  failed : Bool := false
  files : List (String × String) := []
  deriving Inhabited

namespace Session

def print (s : Session) (text : String) : Session := { s with printed := s.printed ++ text }

def write (s : Session) (name text : String) : Session := { s with files := s.files ++ [(name, text)] }

end Session

/-- A file name without what follows its last point, unless nothing but points stands before it. -/
def stem (name : String) : String :=
  let cs := name.toList
  let file := (cs.reverse.takeWhile (· != '/')).reverse
  let folder := cs.take (cs.length - file.length)
  let points := file.takeWhile (· == '.')
  let rest := file.drop points.length
  if rest.contains '.' then
    String.ofList (folder ++ points ++ ((rest.reverse.dropWhile (· != '.')).drop 1).reverse)
  else name

def counted (n : Nat) (word : String) : String :=
  toString n ++ " " ++ word ++ (if n = 1 then "" else "s") ++ "\n"

def closing (options : Options) (source : String) (found : List Diagnostic) : String :=
  if found.isEmpty then ""
  else
    let report := match Diagnostic.report options.file source found with
      | .ok text => text
      | .error _ => ""
    counted (Diagnostic.errorCount found) "error" ++ counted (Diagnostic.warningCount found) "warning" ++ report

def sessionOf (options : Options) (writable : String → Bool) (source : String) (c : Compilation) : Session :=
  let treeFile := stem options.output ++ "_AST.txt"
  let scopeFile := stem options.output ++ "_symbol_table.txt"
  let start : Session := { messages := c.messages }
  if c.stage = .syntaxErrors then start
  else
    let treeOk := c.treeText.isSome && (!options.saveTree || writable treeFile)
    let scopesOk := treeOk && c.scopes.isSome && (!options.saveSymbols || writable scopeFile)
    let typesOk := scopesOk && c.symbols.isSome
    let codeOk := typesOk && (c.code.isNone || writable options.output)
    let found := if scopesOk then c.found
      else if treeOk then (c.diagnostics.filter fun d => d.1 = .scope).map (·.2)
      else []
    let s := if options.saveTree && treeOk then start.write treeFile (c.treeText.getD "") else start
    let s := if treeOk then s.print (String.join (c.notices.map (· ++ "\n"))) else s
    let s := if options.saveSymbols && scopesOk then s.write scopeFile (c.scopes.getD "") else s
    let s := if typesOk && !options.quiet then
        s.print (c.checkedText.getD "" ++ "\n" ++ c.symbols.getD "" ++ "\n")
      else s
    let s := if codeOk then
        match c.code with
        | some code => (s.write options.output (codeText code)).print
            (String.join (c.codeNotices.map (· ++ "\n")))
        | none => s
      else s
    let s := { s with failed := !codeOk || c.fault.isSome }
    s.print (closing options source found)

/-- Carries out what is asked for, with the text of the source or why it cannot be read. -/
def session (options : Options) (writable : String → Bool) (source : Except Fault String) : Session :=
  match source with
  | .error f => { exitCode := 1, fault := some f }
  | .ok source =>
    let c := compile source
    if c.stage = .parse then { exitCode := 1, fault := c.fault, messages := c.messages }
    else sessionOf options writable source c

/-- A file name without the mark of the folder that everything happens in. -/
def nearName (name : String) : String := if name.startsWith "./" then (name.drop 2).toString else name

/-- A name that a file can be written to in a folder without folders. -/
def isWritable (name : String) : Bool :=
  let name := nearName name
  !name.isEmpty && !name.contains '/' && name != "." && name != ".."

/-- Carries out a command line in a folder with some files and no folders. The files of the session are those
that it left with another text. A command line that cannot be read has no session. -/
def runIn (files : List (String × String)) (args : List String) : Option Session :=
  match CommandLine.read args with
  | .refused => none
  | .help => some { printed := helpText }
  | .run options =>
    let s := session options isWritable (match files.lookup (nearName options.file) with
      | some text => .ok text
      | none => .error .noFile)
    let written := s.files.foldl (fun fs (k, v) => (nearName k, v) :: fs.filter (·.1 != nearName k)) []
    some { s with files := written.filter fun (k, v) => files.lookup k != some v }

end MiniC.CommandLine
