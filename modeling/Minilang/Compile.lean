import Minilang.Lowering.Program
import Minilang.Parsing.Program

/-!
# Compiling

The whole way from a text to a module: tokens, analyzed program, module. The first fault on this way is
the result instead.
-/

namespace Minilang

/-- Compile the program in a text. -/
def compile (source : Source) : Except Diagnostic Ir.Module := do
  lower (← parse source)

/-- Compile the program at a path, whose text the given function gets. The path is the name of the
source. -/
def compilePath (read : String → Except ReadError String) (path : String) :
    Except Diagnostic Ir.Module :=
  match read path with
  | .ok text => compile ⟨path, text⟩
  | .error error => .error (.unreadable path error)

end Minilang
