import Minilang.CommandLine
import Minilang.FileTree

/-!
# The program

Reads the input, runs, and writes what the run has to say.
-/

namespace Minilang

/-- All bytes that are left on a stream, behind those read already. -/
partial def readRest (stream : IO.FS.Stream) (bytes : ByteArray) : IO ByteArray := do
  let next ← stream.read 65536
  if next.isEmpty then return bytes else readRest stream (bytes ++ next)

/-- The number of a system error, which may come with its sign changed. -/
def errorNumber (code : UInt32) : UInt32 := if code < 0x80000000 then code else -code

/-- Why the system does not give the bytes of an input. -/
def readErrorOf (error : IO.Error) : ReadError :=
  match error with
  | .noFileOrDirectory .. => .notFound
  | .inappropriateType _ code _ => if errorNumber code = 21 then .isDirectory else .notDirectory
  | .invalidArgument _ code _ =>
    if errorNumber code = 36 then .nameTooLong else .refused (toString error)
  | .permissionDenied .. => .refused "Permission denied (os error 13)"
  | _ => .refused (toString error)

/-- The text of an input. -/
def readInput (input : Input) : IO (Except ReadError String) := do
  try
    let bytes ← match input with
      | .standard => readRest (← IO.getStdin) ByteArray.empty
      | .file path => IO.FS.readBinFile path
    return decodeText bytes
  catch error => return .error (readErrorOf error)

/-- What is said about arguments that are not in order. -/
def usage : String := "usage: minilang [--emit tokens|ast|ir] [-v|--verbose] INPUT"

end Minilang

/-- Run with the arguments given to the program. -/
def main (arguments : List String) : IO UInt32 := do
  match Minilang.Options.ofArguments? arguments with
  | none =>
    IO.eprintln Minilang.usage
    return 2
  | some options =>
    let run := Minilang.Run.ofOptions options (← Minilang.readInput options.input)
    IO.print run.standardOutput
    IO.eprint (run.standardError options.verbose)
    return if run.succeeded then 0 else 1
