/-!
# Reading integers within bounds

An integer is an optional sign and at least one digit, with nothing before, between or after.
Reading goes from left to right and reports what it meets first, so a number that is too large is
reported before a wrong character behind the digit that makes it so.
-/

set_option autoImplicit false

namespace Tonegraph

/-- Why a text is not an integer within bounds. -/
inductive IntegerFault where
  | empty
  | badDigit
  | tooLarge
  | tooSmall
deriving DecidableEq, Repr

/-- What an integer fault says. -/
def IntegerFault.message : IntegerFault → String
  | .empty => "cannot parse integer from empty string"
  | .badDigit => "invalid digit found in string"
  | .tooLarge => "number too large to fit in target type"
  | .tooSmall => "number too small to fit in target type"

namespace Decimal

/-- Puts digits behind a number that has to stay within a bound. -/
def readDigits (bound : Nat) (beyond : IntegerFault) : Nat → List Char → Except IntegerFault Nat
  | value, [] => .ok value
  | value, c :: rest =>
    if c.isDigit then
      let longer := 10 * value + (c.toNat - '0'.toNat)
      if longer ≤ bound then readDigits bound beyond longer rest else .error beyond
    else .error .badDigit

/-- Reads a whole text as an integer from `low`, not above zero, to `high`, not below zero. -/
def readInteger (low high : Int) : List Char → Except IntegerFault Int
  | [] => .error .empty
  | ['-'] | ['+'] => .error .badDigit
  | '-' :: digits => do return -(← readDigits (-low).toNat .tooSmall 0 digits : Nat)
  | '+' :: digits => do return (← readDigits high.toNat .tooLarge 0 digits : Nat)
  | digits => do return (← readDigits high.toNat .tooLarge 0 digits : Nat)

end Decimal

end Tonegraph
