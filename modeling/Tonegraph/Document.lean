/-!
# Reading JSON documents, one character after the other

A document is read once, from left to right, into a value of a known shape. The first thing wrong
decides what is reported: that the text ends early (`Fault.early`), that it is not JSON
(`Fault.malformed`), or that it is JSON of another shape than the wanted one
(`Fault.misshapen`). So a document that is both too short and of the wrong shape is reported by
whichever shows first.

A `Reader` takes its value off the front of the text. This module has what all readers share:
looking at the next character, which passes over blanks, and asking for a certain one. Literals
are `Document/Literal`, skipping is `Document/Skip`, records are `Document/Members`, and writing is
`Document/Layout`.
-/

set_option autoImplicit false

namespace Tonegraph.Document

/-- Why a document cannot be read. -/
inductive Fault where
  | early
  | malformed
  | misshapen
deriving DecidableEq, Repr

/-- What a fault says. -/
def Fault.message : Fault → String
  | .early => "the text ends early"
  | .malformed => "the text is not JSON"
  | .misshapen => "the value has another shape"

/-- Takes a value off the front of a text. -/
abbrev Reader := StateT (List Char) (Except Fault)

/-- The four characters that may stand between any two parts of a document. -/
def isBlank (c : Char) : Bool := c == ' ' || c == '\n' || c == '\t' || c == '\x0d'

/-- The next character, left in place; at the end of the text there is none. -/
def next? : Reader (Option Char) := do
  return (← get).head?

/-- Passes over the next character. -/
def skip : Reader Unit := modify List.tail

/-- Passes over the next character if it is such a one, and says whether it was. -/
def skipIf (isWanted : Char → Bool) : Reader Bool := do
  match ← next? with
  | some c => if isWanted c then do skip; return true else return false
  | none => return false

/-- The next character that is not blank, left in place. The text must not end before it. -/
def peek : Reader Char := do
  modify (List.dropWhile isBlank)
  match ← next? with
  | some c => return c
  | none => throw .early

/-- Passes over a character that has to come next, after blanks. -/
def expect (wanted : Char) : Reader Unit := do
  if (← peek) == wanted then skip else throw .malformed

/-- Reads a whole text: after the value only blanks may come. -/
def readAll {α : Type} (reader : Reader α) (text : List Char) : Except Fault α := do
  let (value, rest) ← reader.run text
  if rest.all isBlank then return value else throw .malformed

end Tonegraph.Document
