import Minilang.Compile
import Minilang.Diagnostic.Message
import Minilang.Ir.Text
import Minilang.Text.Blank

/-!
# The command line

The arguments name one input and say what to write about it. A run writes its result to standard output
and progress and faults to standard error.
-/

namespace Minilang

/-- What to write about a program. -/
inductive Emission where
  /-- Its tokens. -/
  | tokens
  /-- The analyzed program. -/
  | program
  /-- The module it is compiled to. -/
  | module
deriving DecidableEq, Repr

namespace Emission

/-- What a word asks to write. -/
def ofWord? : String → Option Emission
  | "tokens" => some tokens
  | "ast" => some program
  | "ir" => some module
  | _ => none

end Emission

/-- Where the text of a program comes from. -/
inductive Input where
  /-- The text is given on standard input. -/
  | standard
  /-- The text is in a file. -/
  | file (path : String)
deriving DecidableEq, Repr

namespace Input

/-- The input that an argument names. -/
def ofArgument (argument : String) : Input :=
  if argument = "-" then standard else file argument

/-- The name of the input in locations and messages. -/
def name : Input → String
  | standard => "<stdin>"
  | file path => path

end Input

/-- What the arguments ask for. -/
structure Options where
  /-- Where the text comes from. -/
  input : Input
  /-- What to write about it. -/
  emission : Emission
  /-- Whether to report progress. -/
  verbose : Bool
deriving DecidableEq, Repr

namespace Options

/-- What has been read of the arguments. Nothing can be given twice. -/
structure Draft where
  /-- The input, once it is given. -/
  input : Option Input
  /-- What to write, once it is given. -/
  emission : Option Emission
  /-- Whether to report progress. -/
  verbose : Bool
deriving DecidableEq, Repr

namespace Draft

/-- Nothing has been read. -/
def empty : Draft := ⟨none, none, false⟩

/-- Take an input. -/
def addInput (draft : Draft) (argument : String) : Option Draft :=
  match draft.input with
  | some _ => none
  | none => some { draft with input := some (.ofArgument argument) }

/-- Take the word for what to write. -/
def addEmission (draft : Draft) (word : String) : Option Draft := do
  match draft.emission with
  | some _ => none
  | none => some { draft with emission := some (← Emission.ofWord? word) }

/-- Take the demand for progress reports. -/
def addVerbose (draft : Draft) : Option Draft :=
  if draft.verbose then none else some { draft with verbose := true }

/-- The options, if an input is given. The module is written unless something else is asked for. -/
def complete (draft : Draft) : Option Options :=
  draft.input.map fun input => ⟨input, draft.emission.getD .module, draft.verbose⟩

/-- Read inputs. -/
def readInputs (draft : Draft) : List String → Option Draft
  | [] => some draft
  | argument :: arguments => do readInputs (← draft.addInput argument) arguments

/-- Read one argument that does not stand for itself alone: an input, or the word for what to write behind
an equals sign. A dash alone is an input, and dashes in front of anything else are not. -/
def readSingle (draft : Draft) (argument : String) : Option Draft :=
  if argument.startsWith "--emit=" then draft.addEmission (argument.drop 7).copy
  else if argument.startsWith "-" ∧ argument ≠ "-" then none
  else draft.addInput argument

/-- Read arguments. Two dashes end the options. -/
def read (draft : Draft) : List String → Option Draft
  | [] => some draft
  | "--" :: arguments => draft.readInputs arguments
  | "--emit" :: word :: arguments => do read (← draft.addEmission word) arguments
  | "-v" :: arguments | "--verbose" :: arguments => do read (← draft.addVerbose) arguments
  | argument :: arguments => do read (← draft.readSingle argument) arguments

end Draft

/-- The options that arguments ask for, if they are in order. -/
def ofArguments? (arguments : List String) : Option Options := do
  (← Draft.empty.read arguments).complete

end Options

namespace Token

/-- The line that a list of tokens has for a token. -/
def line (token : Token) : String :=
  let text := match token.kind with
    | .identifier name => "identifier " ++ TokenKind.inBackquotes name
    | .string text => "string " ++ Text.quoted '"' text.toList
    | kind => kind.description
  s!"{token.location.text}: {text}"

end Token

/-- What a run writes to standard output. -/
inductive Output where
  /-- Tokens, one a line. -/
  | tokens (tokens : List Token)
  /-- An analyzed program. -/
  | program (program : Program)
  /-- A module. -/
  | module (module : Ir.Module)
deriving Repr

namespace Output

/-- The text of an output. -/
def text : Output → String
  | tokens list => String.join (list.map fun token => token.line ++ "\n")
  | program result => (repr result).pretty ++ "\n"
  | module result => result.text

end Output

/-- What came of a run. -/
structure Run where
  /-- The steps that were reported. -/
  progress : List String
  /-- The output, or the fault that ended the run. -/
  outcome : Except Diagnostic Output

namespace Run

/-- Report a step in front of what follows. -/
def after (step : String) (run : Run) : Run := ⟨step :: run.progress, run.outcome⟩

/-- The report about an analyzed program. -/
def analyzed (program : Program) : String :=
  s!"analyzed {program.declarations.length} declarations, {program.ast.exprs.size} expressions"

/-- The report about a module. -/
def lowered (module : Ir.Module) : String :=
  s!"lowered {module.globals.length} globals, {module.functions.length} functions"

/-- Go on with an analyzed program. -/
def ofProgram (emission : Emission) (program : Program) : Run :=
  match emission with
  | .program => ⟨[], .ok (.program program)⟩
  | _ =>
    match lower program with
    | .ok module => after (lowered module) ⟨[], .ok (.module module)⟩
    | .error error => ⟨[], .error error⟩

/-- Go on with a text. -/
def ofSource (emission : Emission) (source : Source) : Run :=
  match emission with
  | .tokens => ⟨[], (tokenize source).map .tokens⟩
  | _ =>
    after s!"parsing {source.name}" <|
      match parse source with
      | .ok program => after (analyzed program) (ofProgram emission program)
      | .error error => ⟨[], .error error⟩

/-- Run on the text that was read. Blanks at the end of the text do not belong to the program. -/
def ofOptions (options : Options) (text : Except ReadError String) : Run :=
  let name := options.input.name
  match text with
  | .ok text => ofSource options.emission ⟨name, String.ofList (Text.trimEnd text.toList)⟩
  | .error error => ⟨[], .error (.unreadable name error)⟩

/-- Whether the run has reached its output. -/
def succeeded (run : Run) : Bool := run.outcome.isOk

/-- What a run writes to standard output. -/
def standardOutput (run : Run) : String :=
  match run.outcome with
  | .ok output => output.text
  | .error _ => ""

/-- What a run writes to standard error: progress, if it is asked for, and the fault. -/
def standardError (run : Run) (verbose : Bool) : String :=
  let progress := if verbose then run.progress else []
  let faults := match run.outcome with
    | .ok _ => []
    | .error error => [error.message]
  String.join ((progress ++ faults).map (· ++ "\n"))

end Run

end Minilang
