import Tonegraph.Formula
import Tonegraph.Arithmetic
/-!
# The value of a formula

`Bindings` gives values to at most four names; a name that is bound again keeps its place and
takes the new value. `Formula.evaluate` reads a formula under bindings. It follows the arithmetic
in everything that is undefined there, so the only thing that can go wrong is a name without a
value. Operands are evaluated from left to right, except that a logarithm evaluates its argument
before its base: this decides which of two names without a value is reported.
-/

set_option autoImplicit false

namespace Tonegraph

/-- Why bindings or an evaluation failed. -/
inductive EvalError where
  | unbound (name : String)
  | full
deriving DecidableEq, Repr

/-- The most names that can be bound at once. -/
def Bindings.capacity : Nat := 4

/-- What an evaluation error says. -/
def EvalError.message : EvalError → String
  | .unbound name => "unbound variable `" ++ name ++ "`"
  | .full => "evaluation context is full (" ++ toString Bindings.capacity ++ " bindings)"

/-- Names with their values, in the order in which they were first bound. -/
structure Bindings (R : Type) where
  entries : List (String × R)
  length_le : entries.length ≤ Bindings.capacity

namespace Bindings

variable {R : Type}

/-- No name is bound. -/
def empty : Bindings R := ⟨[], Nat.zero_le _⟩

/-- Only the time is bound. -/
def atTime (t : R) : Bindings R := ⟨[(timeName, t)], by simp [capacity]⟩

/-- How many names are bound. -/
def size (b : Bindings R) : Nat := b.entries.length

/-- The value of a name. -/
def get? (b : Bindings R) (name : String) : Option R :=
  (b.entries.find? (·.1 = name)).map (·.2)

/-- Gives a value to a name. A new name needs a free place. -/
def bind (b : Bindings R) (name : String) (value : R) : Except EvalError (Bindings R) :=
  if b.entries.any (·.1 = name) then
    .ok ⟨b.entries.map fun e => if e.1 = name then (name, value) else e,
      by simpa using b.length_le⟩
  else if free : b.entries.length < capacity then
    .ok ⟨b.entries ++ [(name, value)], by rw [List.length_append]; exact free⟩
  else .error .full

end Bindings

variable {R : Type} [Arithmetic R]

/-- The value of a constant. -/
def Constant.value : Constant → R
  | .pi => Arithmetic.pi
  | .euler => Arithmetic.euler

/-- What an operation makes of its operand. -/
def UnaryOp.value : UnaryOp → R → R
  | .neg, x => -x
  | .abs, x => Arithmetic.abs x
  | .floor, x => Scalar.floor x
  | .ceil, x => Arithmetic.ceil x
  | .sin, x => Arithmetic.sin x
  | .cos, x => Arithmetic.cos x
  | .tan, x => Arithmetic.tan x

/-- What an operation makes of its operands. -/
def BinaryOp.value : BinaryOp → R → R → R
  | .add, x, y => x + y
  | .sub, x, y => x - y
  | .mul, x, y => x * y
  | .div, x, y => x / y
  | .mod, x, y => Arithmetic.floorMod x y
  | .pow, x, y => Arithmetic.pow x y
  | .log, base, x => Arithmetic.log x / Arithmetic.log base

namespace Formula

/-- The value of a formula under bindings. -/
def evaluate (b : Bindings R) : Formula R → Except EvalError R
  | .number value => .ok value
  | .named name =>
    match b.get? name with
    | some value => .ok value
    | none => .error (.unbound name)
  | .constant c => .ok c.value
  | .unary op x => do
    let x ← x.evaluate b
    return op.value x
  | .binary .log base x => do
    let x ← x.evaluate b
    let base ← base.evaluate b
    return BinaryOp.log.value base x
  | .binary op x y => do
    let x ← x.evaluate b
    let y ← y.evaluate b
    return op.value x y

/-- The value of a formula at a time, with no other name bound. -/
def evaluateAt (f : Formula R) (t : R) : Except EvalError R := f.evaluate (.atTime t)

end Formula

end Tonegraph
