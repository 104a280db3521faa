import Tonegraph.CommandLine
/-!
# The program

Runs the command line on the real terminal.
-/

set_option autoImplicit false

namespace Tonegraph.CommandLine

/-- What an error of the system says about a file. The system tells its errors by numbers, and these
come with either sign. -/
def faultOfNumber (code : UInt32) (text : String) : FileFault :=
  match code.toInt32.toInt.natAbs with
  | 2 => .missing
  | 20 => .notFolder
  | 21 => .isFolder
  | 36 => .nameTooLong
  | number => .other (text.capitalize ++ " (os error " ++ toString number ++ ")")

/-- What an error says about a file. -/
def fileFaultOf : IO.Error → FileFault
  | .noFileOrDirectory _ code text
  | .inappropriateType _ code text
  | .invalidArgument _ code text
  | .permissionDenied _ code text
  | .resourceExhausted _ code text
  | .alreadyExists _ code text
  | .otherError code text => faultOfNumber code text
  | e => .other (toString e)

/-- Does something with a file, and looks at what went wrong. -/
def attempt {α : Type} (action : IO α) : IO (Except FileFault α) := do
  match ← action.toBaseIO with
  | .ok a => return .ok a
  | .error e => return .error (fileFaultOf e)

instance : Terminal IO where
  print text := do
    let stdout ← IO.getStdout
    stdout.putStr text
    stdout.flush
  printError text := do
    let stderr ← IO.getStderr
    stderr.putStr text
  readText path := do return (← attempt (IO.FS.readBinFile path)).bind textOfBytes
  writeBytes path bytes := attempt (IO.FS.writeBinFile path bytes)

end Tonegraph.CommandLine

/-- Runs the program with its arguments. -/
def main (arguments : List String) : IO UInt32 := Tonegraph.CommandLine.run arguments
