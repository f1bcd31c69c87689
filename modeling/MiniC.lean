import MiniC.Corpus
import MiniC.Grammar.Lists
import MiniC.Grammar.Nested
import MiniC.Grammar.PathWords
import MiniC.Main
import MiniC.Parse.Control
import MiniC.Parse.Interpret
import MiniC.Parse.Path
import MiniC.Predict.Shelf
import MiniC.Report.Compiler
import MiniC.Report.Configs
import MiniC.Report.Prediction
import MiniC.Report.Tree
import MiniC.Script.Read
import MiniC.Version
import MiniC.Proofs.IntLang.Preservation
import MiniC.Proofs.Scope.Layout
import MiniC.Proofs.Scope.Nesting
import MiniC.Proofs.Code.Jumps
import MiniC.Proofs.Phrase.Forming
import MiniC.Proofs.Array.Subscripts
import MiniC.Proofs.PointerLang.Simulation
import MiniC.Proofs.Renaming.Program
import MiniC.Proofs.Code.Padding
