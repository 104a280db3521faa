import Tonegraph.Decimal
/-!
# Reading a number from text

The accepted texts are an optional sign and either digits with at most one point among them, at
least one digit in all, and an optional power of ten, or one of the words `inf`, `infinity` and
`nan` in any mixture of cases. Nothing may stand before or after, blanks included.
-/

set_option autoImplicit false

namespace Tonegraph

/-- What a numeral can say: a decimal number, an infinity, or that it is no number. -/
inductive Literal where
  | nan
  | infinite (negative : Bool)
  | finite (value : Decimal)
deriving DecidableEq, Repr

namespace Decimal

/-- The number a run of digits stands for. -/
def ofDigits (digits : List Char) : Nat :=
  digits.foldl (fun value c => 10 * value + (c.toNat - '0'.toNat)) 0

/-- The digits at the front of a text, and what comes after them. -/
def spanDigits (text : List Char) : List Char × List Char :=
  text.span Char.isDigit

/-- Takes a sign off the front of a text; without one the number is not negative. -/
def spanSign : List Char → Bool × List Char
  | '-' :: rest => (true, rest)
  | '+' :: rest => (false, rest)
  | rest => (false, rest)

/-- The digits behind a point, when the text goes on with one. -/
def spanFraction : List Char → List Char × List Char
  | '.' :: rest => spanDigits rest
  | rest => ([], rest)

/-- The power of ten a text ends with: nothing at all, or `e`, an optional sign and digits. -/
def exponentOf? : List Char → Option Int
  | [] => some 0
  | c :: rest =>
    if c = 'e' ∨ c = 'E' then
      let (negative, digits) := spanSign rest
      if digits.isEmpty || !digits.all Char.isDigit then none
      else some (if negative then -(ofDigits digits : Int) else ofDigits digits)
    else none

/-- The decimal number a whole text without its sign is. -/
def unsigned? (negative : Bool) (text : List Char) : Option Decimal :=
  let (whole, rest) := spanDigits text
  let (fraction, rest) := spanFraction rest
  if whole.isEmpty && fraction.isEmpty then none
  else
    (exponentOf? rest).map fun power =>
      ⟨negative, ofDigits (whole ++ fraction), power - fraction.length⟩

end Decimal

/-- The word a numeral can be instead of digits. -/
def Literal.ofWord? (negative : Bool) (text : List Char) : Option Literal :=
  let word := String.ofList (text.map Char.toLower)
  if word = "nan" then some .nan
  else if word = "inf" ∨ word = "infinity" then some (.infinite negative)
  else none

/-- Reads a whole text as a number. -/
def Literal.read? (text : List Char) : Option Literal :=
  let (negative, text) := Decimal.spanSign text
  match Decimal.unsigned? negative text with
  | some d => some (.finite d)
  | none => Literal.ofWord? negative text

end Tonegraph
