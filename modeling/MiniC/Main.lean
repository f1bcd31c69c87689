import MiniC.CommandLine.Session

/-!
# The compiler as a program

Reads the source file that the command line names, and writes the code and what else was asked for.
-/

open MiniC CommandLine

def writeFiles : List (String × String) → IO Unit
  | [] => pure ()
  | (name, text) :: rest => do
    IO.FS.writeFile name text
    writeFiles rest

def main (args : List String) : IO UInt32 := do
  match CommandLine.read args with
  | .refused =>
    IO.eprint helpText
    return 2
  | .help =>
    IO.print helpText
    return 0
  | .run options =>
    let source ← try
        let text ← IO.FS.readFile options.file
        pure (Except.ok text)
      catch _ => pure (Except.error (Fault.noFile))
    let s := session options (fun name => !name.isEmpty) source
    for message in s.messages do IO.eprintln message
    IO.print s.printed
    writeFiles s.files
    if s.failed then IO.eprintln "the compilation was given up"
    return UInt32.ofNat s.exitCode
