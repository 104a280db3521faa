import Tonegraph.Formula
import Tonegraph.Arithmetic
/-!
# The display form of a formula

`Formula.latex` writes a formula as LaTeX. Products are written side by side, so an operand that
does not read as one factor is put into parentheses there, and also as an operand of a modulo or
of a negation and as the base of a power.
-/

set_option autoImplicit false

namespace Tonegraph.Latex

/-- A text in braces. -/
def braced (text : String) : String := "\x7b" ++ text ++ "\x7d"

/-- A text in parentheses. -/
def parenthesised (text : String) : String := "(" ++ text ++ ")"

/-- A constant. -/
def constant : Constant → String
  | .pi => "\\pi"
  | .euler => "e"

/-- An operation on an operand; `term` is the operand fit to stand beside another factor. -/
def unary (op : UnaryOp) (operand term : String) : String :=
  match op with
  | .neg => "-" ++ term
  | .abs => "|" ++ operand ++ "|"
  | .floor => "\\lfloor " ++ operand ++ " \\rfloor"
  | .ceil => "\\lceil " ++ operand ++ " \\rceil"
  | .sin => "\\sin" ++ parenthesised operand
  | .cos => "\\cos" ++ parenthesised operand
  | .tan => "\\tan" ++ parenthesised operand

/-- An operation on two operands; the terms are the operands fit to stand beside another
factor. -/
def binary (op : BinaryOp) (left right leftTerm rightTerm : String) : String :=
  match op with
  | .add => left ++ " + " ++ right
  | .sub => left ++ " - " ++ right
  | .mul => leftTerm ++ rightTerm
  | .div => "\\frac" ++ braced left ++ braced right
  | .mod => leftTerm ++ " % " ++ rightTerm
  | .pow => leftTerm ++ "^" ++ braced right
  | .log => "\\log_" ++ braced left ++ parenthesised right

end Tonegraph.Latex

namespace Tonegraph

namespace Formula

variable {R : Type} [Numeral R]

/-- The LaTeX form of a formula. -/
def latex : Formula R → String
  | .number value => Numeral.text value
  | .named name => name
  | .constant c => Latex.constant c
  | .unary op x =>
    let text := x.latex
    Latex.unary op text (if x.isTerm then text else Latex.parenthesised text)
  | .binary op x y =>
    let left := x.latex
    let right := y.latex
    Latex.binary op left right
      (if x.isTerm then left else Latex.parenthesised left)
      (if y.isTerm then right else Latex.parenthesised right)

end Formula

end Tonegraph
