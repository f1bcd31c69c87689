/-!
# Command lines

A command line names one source file and options. An option may be cut short as long as only one option
starts with what is left; options of one letter may be written together, and their value may follow at once.
What follows a double dash is no option.
-/

namespace MiniC.CommandLine

inductive Opt where
  | help
  | saveTree
  | saveSymbols
  | timings
  | quiet
  | output
  deriving DecidableEq, Repr, Inhabited

def spellings : List (String × Opt) :=
  [("-h", .help), ("--help", .help),
    ("-save-ast", .saveTree), ("--save-ast", .saveTree), ("-saveast", .saveTree), ("--saveast", .saveTree),
    ("-save-symbol-table", .saveSymbols), ("--save-symbol-table", .saveSymbols),
    ("-t", .timings), ("--timings", .timings),
    ("-q", .quiet), ("--quiet", .quiet),
    ("-o", .output)]

def spelled? (text : String) : Option Opt := spellings.lookup text

def Opt.takesValue : Opt → Bool
  | output => true
  | _ => false

structure Options where
  file : String := ""
  saveTree : Bool := false
  saveSymbols : Bool := false
  timings : Bool := false
  quiet : Bool := false
  output : String := "out.p"
  deriving DecidableEq, Repr, Inhabited

inductive Request where
  | run (options : Options)
  | help
  | refused
  deriving DecidableEq, Repr, Inhabited

structure Use where
  opt : Option Opt
  spelling : String
  /-- The value that is written in the same argument, and whether an equals sign stands before it. -/
  value : Option String := none
  equals : Bool := false
  deriving DecidableEq, Repr, Inhabited

inductive Argument where
  | plain
  | doubleDash
  | option (use : Use)
  deriving DecidableEq, Repr, Inhabited

def cutAtEquals (text : String) : String × Option String :=
  let cs := text.toList
  let name := cs.takeWhile (· != '=')
  match cs.drop name.length with
  | [] => (text, none)
  | _ :: value => (String.ofList name, some (String.ofList value))

def candidates (arg : String) : List Use :=
  match arg.toList with
  | '-' :: '-' :: _ =>
    let (name, value) := cutAtEquals arg
    (spellings.filter fun s => s.1.startsWith name).map fun (spelling, opt) =>
      { opt := some opt, spelling, value, equals := value.isSome }
  | a :: b :: rest =>
    let short := String.ofList [a, b]
    spellings.filterMap fun (spelling, opt) =>
      if spelling == short then some { opt := some opt, spelling, value := some (String.ofList rest) }
      else if spelling.startsWith arg then some { opt := some opt, spelling }
      else none
  | _ => []

def isNegativeNumber (arg : String) : Bool :=
  match arg.toList with
  | '-' :: rest =>
    let whole := rest.takeWhile Char.isDigit
    match rest.drop whole.length with
    | [] => !whole.isEmpty
    | '.' :: places => !places.isEmpty && places.all Char.isDigit
    | _ => false
  | _ => false

/-- The sort of an argument before a double dash; nothing if it could be several options. -/
def classify (arg : String) : Option Argument :=
  if !arg.startsWith "-" then some .plain
  else
    match spelled? arg with
    | some opt => some (.option { opt := some opt, spelling := arg })
    | none =>
      if arg.length = 1 then some .plain
      else
        let (name, value) := cutAtEquals arg
        match value, spelled? name with
        | some value, some opt =>
          some (.option { opt := some opt, spelling := name, value := some value, equals := true })
        | _, _ =>
          match candidates arg with
          | [use] => some (.option use)
          | [] =>
            if isNegativeNumber arg || arg.contains ' ' then some .plain
            else some (.option { opt := none, spelling := arg })
          | _ => none

def classifyAll : List String → Option (List (String × Argument))
  | [] => some []
  | arg :: rest =>
    if arg == "--" then some ((arg, .doubleDash) :: rest.map fun a => (a, .plain))
    else do
      let sort ← classify arg
      let rest ← classifyAll rest
      return (arg, sort) :: rest

structure Reading where
  options : Options := {}
  hasFile : Bool := false
  extra : Bool := false
  deriving Inhabited

def Options.set (o : Options) (opt : Opt) (value : String) : Options :=
  match opt with
  | .help => o
  | .saveTree => { o with saveTree := true }
  | .saveSymbols => { o with saveSymbols := true }
  | .timings => { o with timings := true }
  | .quiet => { o with quiet := true }
  | .output => { o with output := value }

/-- What comes of reading options: what was asked for at once, or what was read and what is left. -/
inductive Step where
  | stop (request : Request)
  | next (options : List (Opt × String)) (extra : Bool) (rest : List (String × Argument))

def readUse : Nat → Use → List (Opt × String) → List (String × Argument) → Step
  | 0, _, _, _ => .stop .refused
  | fuel + 1, use, done, rest =>
    match use.opt with
    | none => .next done true rest
    | some opt =>
      match use.value with
      | none =>
        if opt.takesValue then
          match rest with
          | (value, .plain) :: rest => .next (done ++ [(opt, value)]) false rest
          | _ => .stop .refused
        else .next (done ++ [(opt, "")]) false rest
      | some value =>
        if opt.takesValue then .next (done ++ [(opt, value)]) false rest
        else if use.spelling.startsWith "--" || value.isEmpty || use.equals || value.startsWith "-" then
          .stop .refused
        else
          let done := done ++ [(opt, "")]
          match value.toList with
          | [] => .stop .refused
          | c :: more =>
            let spelling := String.ofList ['-', c]
            match spelled? spelling with
            | none => .next done true rest
            | some opt =>
              let use : Use := match more with
                | [] => { opt := some opt, spelling }
                | '=' :: value =>
                  { opt := some opt, spelling, value := some (String.ofList value), equals := true }
                | value => { opt := some opt, spelling, value := some (String.ofList value) }
              readUse fuel use done rest

/-- Takes options one after the other; nothing if help was asked for. -/
def takeAll : Options → List (Opt × String) → Option Options
  | o, [] => some o
  | o, (opt, value) :: rest => if opt = .help then none else takeAll (o.set opt value) rest

/-- Takes the source file from the front of the arguments, with the double dash before or after it. -/
def takeFile : List (String × Argument) → Option (String × List (String × Argument))
  | (file, .plain) :: (_, .doubleDash) :: rest => some (file, rest)
  | (file, .plain) :: rest => some (file, rest)
  | (_, .doubleDash) :: (file, .plain) :: rest => some (file, rest)
  | _ => none

def readAll : Nat → Reading → List (String × Argument) → Request
  | _, r, [] => if r.hasFile && !r.extra then .run r.options else .refused
  | 0, _, _ => .refused
  | fuel + 1, r, (arg, .option use) :: rest =>
    match readUse (arg.length + 1) use [] rest with
    | .stop request => request
    | .next options extra rest =>
      match takeAll r.options options with
      | none => .help
      | some options => readAll fuel { r with options, extra := r.extra || extra } rest
  | fuel + 1, r, other :: rest =>
    match (if r.hasFile then none else takeFile (other :: rest)) with
    | some (file, rest) => readAll fuel { r with options := { r.options with file }, hasFile := true } rest
    | none => readAll fuel { r with extra := true } rest

def read (args : List String) : Request :=
  match classifyAll args with
  | none => .refused
  | some sorted => readAll (sorted.length + 1) {} sorted

def helpText : String :=
"usage: c2p.py [-h] [-save-ast] [-save-symbol-table] [-t] [-q] [-o O] filename

A C to P compiler

positional arguments:
  filename              The filename of the c program

options:
  -h, --help            show this help message and exit
  -save-ast, --save-ast, -saveast, --saveast
                        Serializes the AST and saves it to \x7bOUTFILE\x7d_AST.txt
  -save-symbol-table, --save-symbol-table
                        Serializes the symbol table and saves it to
                        \x7bOUTFILE\x7d_symbol_table.txt
  -t, --timings         Shows how long each step of the process takes
  -q, --quiet           Disables the printing of the AST and symbol table
  -o O                  Specifies the output filename (preferably with .p
                        filename extension)
"

end MiniC.CommandLine
