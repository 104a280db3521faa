import Tonegraph.Document.Literal
/-!
# Skipping values of a document

`skipValue` passes over a value of any shape and any depth. It keeps a list of the lists and
objects that are open around the place where it is.
-/

set_option autoImplicit false

namespace Tonegraph.Document

/-- What can be open around a value. -/
inductive Enclosure where
  | list
  | object
deriving DecidableEq, Repr

namespace Enclosure

/-- What opens with a character. -/
def opened? : Char → Option Enclosure
  | '[' => some .list
  | '\x7b' => some .object
  | _ => none

/-- The character that closes it. -/
def closing : Enclosure → Char
  | .list => ']'
  | .object => '\x7d'

end Enclosure

/-- Passes over what stands before a value: in an object a name and a colon. -/
def skipName : Enclosure → Reader Unit
  | .list => return
  | .object => do
    expect '"'
    skipStringRest
    expect ':'

/-- Skips a literal that starts with a character. -/
def skipLiteral (first : Char) : Reader Unit := do
  if first == '"' then
    skip
    skipStringRest
  else if startsNumber first then skipNumber
  else skipWord first

/-- The two places between the characters of a value: before a value, and after one. -/
inductive SkipPlace where
  | before
  | after

/-- Skips on until everything open is closed. Each turn passes over a character, but for the last,
so as many turns as there are characters suffice, and one more. -/
def skipOn : Nat → SkipPlace → List Enclosure → Reader Unit
  | _, .after, [] => return
  | 0, _, _ => throw .early
  | fuel + 1, .before, openAround => do
    let c ← peek
    match Enclosure.opened? c with
    | none => do
      skipLiteral c
      skipOn fuel .after openAround
    | some enclosure => do
      skip
      if (← peek) == enclosure.closing then
        skip
        skipOn fuel .after openAround
      else
        skipName enclosure
        skipOn fuel .before (enclosure :: openAround)
  | fuel + 1, .after, enclosure :: openAround => do
    let c ← peek
    if c == ',' then
      skip
      skipName enclosure
      skipOn fuel .before (enclosure :: openAround)
    else if c == enclosure.closing then
      skip
      skipOn fuel .after openAround
    else throw .malformed

/-- Skips a value. -/
def skipValue : Reader Unit := do skipOn ((← get).length + 1) .before []

/-- Fails at a value of another shape than the wanted one. A literal is read for that, so what is
wrong with it comes first. -/
def failShape {α : Type} : Reader α := do
  let c ← peek
  if c == '"' then
    skip
    discard stringRest
  else if startsNumber c then discard number
  else if (Enclosure.opened? c).isNone then skipWord c
  throw .misshapen

end Tonegraph.Document
