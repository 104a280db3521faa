import Tonegraph.CommandLine.Folder
/-!
# Where the command line runs

A `Terminal` is a monad in which text can be printed and files can be read and written. The program
runs in one of `IO`. In a `Transcript` the same program runs as a function: it holds the files of
one folder and the text printed so far.
-/

set_option autoImplicit false

namespace Tonegraph.CommandLine

/-- Printing, and the files. -/
class Terminal (m : Type → Type) where
  /-- Prints text. -/
  print : String → m Unit
  /-- Prints text about what went wrong. -/
  printError : String → m Unit
  /-- The text of a file. -/
  readText : String → m (Except FileFault String)
  /-- Replaces a file, or makes it. -/
  writeBytes : String → ByteArray → m (Except FileFault Unit)

/-! ## Transcripts -/

/-- What a run has printed, and the files as it leaves them. -/
structure Transcript where
  folder : Folder
  output : String
  errors : String

/-- A run that has printed nothing. -/
def Transcript.ofFolder (folder : Folder) : Transcript := ⟨folder, "", ""⟩

instance : Terminal (StateM Transcript) where
  print text := modify fun t => { t with output := t.output ++ text }
  printError text := modify fun t => { t with errors := t.errors ++ text }
  readText path := do return (← get).folder.readText path
  writeBytes path bytes := do
    match (← get).folder.write path bytes with
    | .ok folder =>
      modify fun t => { t with folder }
      return .ok ()
    | .error fault => return .error fault

end Tonegraph.CommandLine
