import Tonegraph.Document
import Tonegraph.Decimal.Reading
import Tonegraph.Decimal.Rounded
import Tonegraph.Text.Letter
/-!
# Strings, numbers and words of a document

Each of the three is read, for its value, or skipped, where nobody wants it. Skipping is more
lenient: it does not look whether the halves of a surrogate pair fit together nor whether a number
is too large, and it takes a number that the text breaks off for malformed.

A number that is read counts as whole when it has neither a fraction nor an exponent, lies within
64 bits, and is not `-0`. A number is refused outright when it is too large for a floating-point
number of 64 bits. That is decided from its first digits: as many as make a number below 2 ^ 64,
rounded to 53 bits, times a power of ten rounded in the same way (`overflows`).
-/

set_option autoImplicit false

namespace Tonegraph.Document

/-! ## Strings -/

/-- What a hexadecimal digit is worth. -/
def hexValue? (c : Char) : Option Nat :=
  if c.isDigit then some (c.toNat - '0'.toNat)
  else if 'a' ≤ c ∧ c ≤ 'f' then some (c.toNat - 'a'.toNat + 10)
  else if 'A' ≤ c ∧ c ≤ 'F' then some (c.toNat - 'A'.toNat + 10)
  else none

/-- Reads four hexadecimal digits. The text ends early if it has fewer than four bytes left. -/
def hexUnit : Reader Nat := do
  let four := (← get).take 4
  if Text.byteLength four < 4 then throw .early
  match four.mapM hexValue? with
  | some digits =>
    modify (List.drop 4)
    return digits.foldl (fun value digit => 16 * value + digit) 0
  | none => throw .malformed

/-- The next character inside a string, which has to go on. -/
def inside : Reader Char := do
  match ← next? with
  | some c => do skip; return c
  | none => throw .early

/-- What follows a backslash and stands for one character, and that character. -/
def shortEscapes : List (Char × Char) :=
  [('"', '"'), ('\\', '\\'), ('/', '/'), ('b', '\x08'), ('f', '\x0c'), ('n', '\n'), ('r', '\x0d'),
    ('t', '\t')]

/-- Reads a character given by its number behind `\u`. One beyond 0xffff is given by two numbers:
the first half of a surrogate pair, and the second half behind another `\u`. Neither half may
stand alone. -/
def numbered : Reader Char := do
  let first ← hexUnit
  if 0xd800 ≤ first ∧ first < 0xdc00 then
    unless (← inside) == '\\' do throw .malformed
    unless (← inside) == 'u' do throw .malformed
    let second ← hexUnit
    unless 0xdc00 ≤ second ∧ second < 0xe000 do throw .malformed
    return Char.ofNat (0x10000 + 0x400 * (first - 0xd800) + (second - 0xdc00))
  else if 0xdc00 ≤ first ∧ first < 0xe000 then throw .malformed
  else return Char.ofNat first

/-- Reads what follows a backslash. -/
def escaped : Reader Char := do
  let c ← inside
  if c == 'u' then numbered
  else
    match shortEscapes.lookup c with
    | some meant => return meant
    | none => throw .malformed

/-- Skips what follows a backslash. -/
def skipEscaped : Reader Unit := do
  let c ← inside
  if c == 'u' then discard hexUnit
  else unless (shortEscapes.lookup c).isSome do throw .malformed

/-- Reads a string from behind its opening quote on. Each turn passes over a character, so as many
turns as there are characters suffice. -/
def characters : Nat → Reader (List Char)
  | 0 => throw .early
  | fuel + 1 => do
    let c ← inside
    if c == '"' then return []
    else if c == '\\' then do
      let meant ← escaped
      return meant :: (← characters fuel)
    else if c.toNat < 0x20 then throw .malformed
    else return c :: (← characters fuel)

/-- Skips a string from behind its opening quote on. -/
def skipCharacters : Nat → Reader Unit
  | 0 => throw .early
  | fuel + 1 => do
    let c ← inside
    if c == '"' then return
    else if c == '\\' then do
      skipEscaped
      skipCharacters fuel
    else if c.toNat < 0x20 then throw .malformed
    else skipCharacters fuel

/-- Reads a string from behind its opening quote on. -/
def stringRest : Reader String := do
  return String.ofList (← characters ((← get).length + 1))

/-- Skips a string from behind its opening quote on. -/
def skipStringRest : Reader Unit := do skipCharacters ((← get).length + 1)

/-! ## Numbers -/

/-- A number as it is written. The digits behind the point are empty when there is no point. -/
structure WrittenNumber where
  negative : Bool
  whole : List Char
  fraction : List Char
  /-- The power of ten behind `e`, if there is one. -/
  power : Option Int

/-- Reads digits, at least one. `broken` is the fault when the text ends instead. -/
def digits (broken : Fault) : Reader (List Char) := do
  match Decimal.spanDigits (← get) with
  | ([], rest) => throw (if rest.isEmpty then broken else .malformed)
  | (found, rest) => do set rest; return found

/-- Reads the part of a number from `e` on, if there is one. -/
def powerOfTen (broken : Fault) : Reader (Option Int) := do
  if ← skipIf fun c => c == 'e' || c == 'E' then
    let negative ← skipIf (· == '-')
    unless negative do discard (skipIf (· == '+'))
    let size : Int := Decimal.ofDigits (← digits broken)
    return some (if negative then -size else size)
  else return none

/-- Reads a number. It has no zero in front of other digits. -/
def writtenNumber (broken : Fault) : Reader WrittenNumber := do
  let negative ← skipIf (· == '-')
  let whole ← digits broken
  if whole.head? = some '0' ∧ whole.length ≠ 1 then throw .malformed
  let fraction ← if ← skipIf (· == '.') then digits broken else pure []
  return ⟨negative, whole, fraction, ← powerOfTen broken⟩

/-- Puts digits behind a number while it stays below 2 ^ 64, and what digits are left then. -/
def absorb : Nat → List Char → Nat × List Char
  | value, [] => (value, [])
  | value, c :: rest =>
    let longer := 10 * value + (c.toNat - '0'.toNat)
    if longer < UInt64.size then absorb longer rest else (value, c :: rest)

/-- The number of 53 significant bits nearest to a number. -/
def nearestOf53Bits (n : Nat) : Nat :=
  let unit := twoTo (n.log2 - 52)
  Decimal.roundQuotient n unit * unit

namespace WrittenNumber

/-- Whether a number is too large for a floating-point number of 64 bits. -/
def overflows (n : WrittenNumber) : Bool :=
  let (ofWhole, wholeLeft) := absorb 0 n.whole
  let (significand, fractionLeft) := absorb ofWhole n.fraction
  let power : Int :=
    wholeLeft.length - (n.fraction.length - fractionLeft.length : Nat) + n.power.getD 0
  significand ≠ 0 && 0 ≤ power && (308 < power ||
    twoTo 1024 - twoTo 970 ≤
      nearestOf53Bits significand * nearestOf53Bits (tenTo power.toNat))

/-- The integer that is written, if the number counts as whole. -/
def whole? (n : WrittenNumber) : Option Int :=
  let size := Decimal.ofDigits n.whole
  if !n.fraction.isEmpty || n.power.isSome then none
  else if n.negative then
    if size ≠ 0 ∧ Int64.minValue.toInt ≤ -(size : Int) then some (-size) else none
  else if size < UInt64.size then some size else none

end WrittenNumber

/-- Reads a number, which must not be too large. -/
def number : Reader WrittenNumber := do
  let written ← writtenNumber .early
  if written.overflows then throw .malformed else return written

/-- Skips a number. -/
def skipNumber : Reader Unit := discard (writtenNumber .malformed)

/-- Reads a whole number within bounds. -/
def wholeNumber (low high : Int) : Reader Int := do
  match (← number).whole? with
  | some n => if low ≤ n ∧ n ≤ high then return n else throw .misshapen
  | none => throw .misshapen

/-- Whether a number can start with a character. -/
def startsNumber (c : Char) : Bool := c == '-' || c.isDigit

/-! ## Words -/

/-- The words of JSON. -/
def words : List String := ["null", "true", "false"]

/-- Passes over certain characters. -/
def skipAll : List Char → Reader Unit
  | [] => return
  | wanted :: rest => do
    if (← inside) == wanted then skipAll rest else throw .malformed

/-- Passes over the word that starts with a character. -/
def skipWord (first : Char) : Reader Unit :=
  match words.find? (·.toList.head? = some first) with
  | some word => skipAll word.toList
  | none => throw .malformed

end Tonegraph.Document
