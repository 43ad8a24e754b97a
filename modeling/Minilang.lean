import Minilang.Analysis.Action
import Minilang.Main
import Minilang.Proofs.Analysis.Blame
import Minilang.Proofs.Analysis.Calls
import Minilang.Proofs.Analysis.Conversions
import Minilang.Proofs.Analysis.Correspondence
import Minilang.Proofs.Analysis.MirroredSteps
import Minilang.Proofs.Analysis.Operators
import Minilang.Proofs.Analysis.Retention
import Minilang.Proofs.Analysis.Runs
import Minilang.Proofs.Analysis.ScopeHistories
import Minilang.Proofs.Analysis.SparedScopes
import Minilang.Proofs.Ir.Renaming
import Minilang.Proofs.Lowering.BlockDiscipline
import Minilang.Proofs.Lowering.Dominance
import Minilang.Proofs.Lowering.GlobalConstants
import Minilang.Proofs.Lowering.JoinedPrograms
import Minilang.Proofs.Lowering.LocatedFaults
import Minilang.Proofs.Lowering.MirroredForms
import Minilang.Proofs.Lowering.Operands
import Minilang.Proofs.Lowering.PrintedModules
import Minilang.Proofs.Lowering.ProgramAddresses
import Minilang.Proofs.Lowering.ProgramControlFlow
import Minilang.Proofs.Lowering.ProgramEvents
import Minilang.Proofs.Lowering.ProgramInitialization
import Minilang.Proofs.Lowering.ProgramSimulation
import Minilang.Proofs.Lowering.Programs
import Minilang.Proofs.Lowering.Recursion
import Minilang.Proofs.Lowering.RenamedPrograms
import Minilang.Proofs.Lowering.Symbols
import Minilang.Proofs.Parsing.Actions
import Minilang.Proofs.Parsing.BlockStarts
import Minilang.Proofs.Parsing.Headings
import Minilang.Proofs.Parsing.IntegerLiterals
import Minilang.Proofs.Parsing.LazyReading
import Minilang.Proofs.Parsing.MirroredForms
import Minilang.Proofs.Parsing.Precedence
import Minilang.Proofs.Parsing.ProgramRecognition
import Minilang.Proofs.Parsing.Scoping
import Minilang.Proofs.Parsing.TypeTexts
import Minilang.Proofs.Token.JoinedTokens
import Minilang.Proofs.Token.Literals
import Minilang.Proofs.Token.Progress
import Minilang.Proofs.Token.Scanning
import Minilang.Proofs.Token.Writing
import Minilang.SymbolTable
