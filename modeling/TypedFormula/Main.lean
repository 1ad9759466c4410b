import TypedFormula.Command.Arguments

/-!
# The program

Reads the file of bindings if there is one, and prints the outcome.
-/

namespace TypedFormula

/-- Why a file was not read. -/
def FileFault.ofError : IO.Error → FileFault
  | .noFileOrDirectory .. => .missing
  | .permissionDenied .. => .denied
  | .inappropriateType .. => .directory
  | e => .other (toString e)

/-- Reads a file. -/
def SourceFile.load (path : String) : IO SourceFile := do
  try
    let bytes ← IO.FS.readBinFile path
    match String.fromUTF8? bytes with
    | some text => return ⟨path, .ok text⟩
    | none => return ⟨path, .error .notText⟩
  catch e => return ⟨path, .error (.ofError e)⟩

/-- Prints an outcome and gives its exit code. -/
def Outcome.print (o : Outcome) : IO UInt32 := do
  IO.print o.output
  IO.eprint o.report
  return o.code.toUInt32

/-- Says why words make no request, and gives the exit code for that. -/
def UsageError.print (e : UsageError) : IO UInt32 := do
  IO.eprintln ("error: " ++ reprStr e)
  return 2

end TypedFormula

/-- Runs the command. -/
def main (args : List String) : IO UInt32 := do
  match TypedFormula.CommandLine.empty.add args with
  | .error e => e.print
  | .ok line =>
    let file ← line.path.mapM TypedFormula.SourceFile.load
    match line.request file with
    | .error e => e.print
    | .ok r => r.outcome.print
