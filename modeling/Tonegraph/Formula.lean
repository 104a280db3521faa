/-!
# Formulas

A `Formula` is the tree that a user's text is read into: numbers, names, two constants, and
operations of one or two operands. It is generic in its numbers. `depth` bounds how far
evaluation goes down, and `names` lists the variables in the order in which they are first met
from left to right.
-/

set_option autoImplicit false

namespace Tonegraph

/-- The constants that have a name in formulas. -/
inductive Constant where
  | pi
  | euler
deriving DecidableEq, Repr

/-- The operations with one operand. -/
inductive UnaryOp where
  | neg
  | abs
  | floor
  | ceil
  | sin
  | cos
  | tan
deriving DecidableEq, Repr

/-- The operations with two operands: the base of a power and of a logarithm is the first. -/
inductive BinaryOp where
  | add
  | sub
  | mul
  | div
  | mod
  | pow
  | log
deriving DecidableEq, Repr

/-- A formula over the numbers `R`. -/
inductive Formula (R : Type) where
  | number (value : R)
  | named (name : String)
  | constant (constant : Constant)
  | unary (op : UnaryOp) (operand : Formula R)
  | binary (op : BinaryOp) (left right : Formula R)
deriving Repr

/-- The name of the variable that stands for the time. -/
def timeName : String := "t"

namespace Formula

variable {R : Type}

/-- Whether the formula reads as one factor when it stands beside another. Sums, differences,
quotients and remainders do not. -/
def isTerm : Formula R → Bool
  | .binary .add _ _ | .binary .sub _ _ | .binary .div _ _ | .binary .mod _ _ => false
  | _ => true

/-- The number of nodes on the longest way from the root to a leaf. -/
def depth : Formula R → Nat
  | .unary _ x => 1 + x.depth
  | .binary _ x y => 1 + max x.depth y.depth
  | _ => 1

/-- Adds the variables of a formula to those seen before it, each once and the new ones last. -/
def addNames (seen : List String) : Formula R → List String
  | .named name => if name ∈ seen then seen else seen ++ [name]
  | .unary _ x => x.addNames seen
  | .binary _ x y => y.addNames (x.addNames seen)
  | _ => seen

/-- The variables of a formula, each once, in the order in which they are first met. -/
def names (f : Formula R) : List String := f.addNames []

/-- The first variable of a formula that does not stand for the time. -/
def foreignName? (f : Formula R) : Option String := f.names.find? (· ≠ timeName)

end Formula

end Tonegraph
