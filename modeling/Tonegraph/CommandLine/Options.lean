import Tonegraph.Arithmetic.FloatingPoint
import Tonegraph.Decimal.Integer
/-!
# Options of the command line

An option is written by its name behind two dashes. An option with a value has it behind an equals
sign or as the next argument; an option without a value can also be written as a letter behind one
dash, several letters together. A level of the command line takes each of its options once.

What the options say is gathered in `Settings`.
-/

set_option autoImplicit false

namespace Tonegraph.CommandLine

/-- What options say; nothing where an option is not given. -/
structure Settings where
  /-- Whether to tell more about what is done. -/
  verbose : Bool
  /-- The length of ramps in seconds. -/
  fade : Option Float
  /-- The time to evaluate a formula at. -/
  time : Option Float
  /-- The file to render into. -/
  wav : Option String
  /-- Frames per second. -/
  rate : Option UInt32
  /-- The time after which rendering is broken off. -/
  maxSeconds : Option UInt32

/-- Nothing said. -/
def Settings.none : Settings := ⟨false, .none, .none, .none, .none, .none⟩

/-- Options of a command, and of the level above where the command itself says nothing. -/
def Settings.orElse (own above : Settings) : Settings :=
  { own with
    verbose := own.verbose || above.verbose
    fade := own.fade <|> above.fade }

/-- What is written behind the name of an option. -/
inductive OptionValue where
  | absent
  | plain
  /-- A value that may begin with a dash, even when it is an argument of its own. -/
  | dashed
deriving DecidableEq, Repr

/-- An option, and what it does to settings. Giving it fails on a value that is none for it. -/
structure OptionForm where
  name : String
  letter : Option Char
  value : OptionValue
  isGiven : Settings → Bool
  give : String → Settings → Option Settings

/-- A number as the value of an option. -/
def numberOf? (text : String) : Option Float := (Literal.read? text.toList).map Literal.toFloat

/-- A natural number of 32 bits as the value of an option. -/
def word32Of? (text : String) : Option UInt32 :=
  (Decimal.readInteger 0 (UInt32.size - 1) text.toList).toOption.map fun n => .ofNat n.toNat

/-- The path of a file, which is never empty. -/
def pathOf? (text : String) : Option String := if text.isEmpty then none else some text

namespace OptionForm

/-- `--verbose`, or `-v`. -/
def verbose : OptionForm :=
  ⟨"verbose", some 'v', .absent, (·.verbose), fun _ s => some { s with verbose := true }⟩

/-- `--fade`. -/
def fade : OptionForm :=
  ⟨"fade", none, .plain, (·.fade.isSome), fun text s => do
    return { s with fade := some (← numberOf? text) }⟩

/-- `--t`. -/
def time : OptionForm :=
  ⟨"t", none, .dashed, (·.time.isSome), fun text s => do
    return { s with time := some (← numberOf? text) }⟩

/-- `--wav`. -/
def wav : OptionForm :=
  ⟨"wav", none, .plain, (·.wav.isSome), fun text s => do
    return { s with wav := some (← pathOf? text) }⟩

/-- `--sample-rate`. -/
def rate : OptionForm :=
  ⟨"sample-rate", none, .plain, (·.rate.isSome), fun text s => do
    return { s with rate := some (← word32Of? text) }⟩

/-- `--max-seconds`. -/
def maxSeconds : OptionForm :=
  ⟨"max-seconds", none, .plain, (·.maxSeconds.isSome), fun text s => do
    return { s with maxSeconds := some (← word32Of? text) }⟩

end OptionForm

end Tonegraph.CommandLine
