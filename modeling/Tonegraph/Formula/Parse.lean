import Tonegraph.Formula
import Tonegraph.Formula.Token
/-!
# Reading formulas

`Formula.parse` reads a text as a formula, by recursive descent over its tokens. From loosest to
tightest bind

* sums and differences, from left to right;
* products, quotients and remainders, from left to right;
* factors side by side, as in `2pi` or `4floor(t)`, where no factor but the first has a sign;
* a sign, and a sign before a plain number makes the negative number;
* powers, from right to left, whose exponent may have a sign.

A bar opens an absolute value where a factor can start and closes the one it stands directly in,
so inside `|…|` a bar never starts a further factor of a product. Brackets of any other kind start
afresh. A `Scan` keeps count of both: `bars` are the bars open since the last bracket, `nesting`
the powers and signs begun and not yet ended. More than `maxDepth` of those are refused, which
bounds the descent; loops of operators are bounded by the tokens left.
-/

set_option autoImplicit false

namespace Tonegraph

/-- The most tokens a formula may have. -/
def Formula.maxTokens : Nat := 4096

/-- The most powers and signs that may be begun inside each other, and the greatest depth of a
formula that is read. -/
def Formula.maxDepth : Nat := 256

/-- Where reading has got to. `stop` is the length of the text, the place of its end. -/
structure Scan (R : Type) where
  rest : List (PlacedToken R)
  stop : Nat
  bars : Nat
  nesting : Nat

/-- Reading a part of a formula. What was read before a fault stays read. -/
abbrev Parse (R : Type) := ExceptT SyntaxError (StateM (Scan R))

/-- What a name says: something to look up, a constant, or a function that takes arguments. -/
inductive NameMeaning where
  | free
  | constant (constant : Constant)
  | function (op : UnaryOp)
  | naturalLogarithm
  | logarithm
deriving DecidableEq, Repr

/-- The names that are taken; every other name is a variable. -/
def NameMeaning.of : String → NameMeaning
  | "pi" => .constant .pi
  | "e" => .constant .euler
  | "sin" => .function .sin
  | "cos" => .function .cos
  | "tan" => .function .tan
  | "abs" => .function .abs
  | "floor" => .function .floor
  | "ceil" => .function .ceil
  | "ln" => .naturalLogarithm
  | "log" => .logarithm
  | _ => .free

namespace Parse

variable {R α : Type}

/-! ## Single tokens -/

/-- The next token, left in place. -/
def next? : Parse R (Option (Token R)) := do
  return (← get).rest.head?.map (·.token)

/-- The place of the next token, or the end of the text. -/
def position : Parse R Nat := do
  let scan ← get
  return (scan.rest.head?.map (·.position)).getD scan.stop

/-- Passes over the next token. -/
def skip : Parse R Unit := modify fun scan => { scan with rest := scan.rest.tail }

/-- Fails at the next token. -/
def fail (fault : SyntaxFault) : Parse R α := do
  throw ⟨fault, ← position⟩

/-- Whether the next token is a certain mark. -/
def nextIs (mark : Mark) : Parse R Bool := do
  match ← next? with
  | some (.mark found) => return found = mark
  | _ => return false

/-- Passes over a mark that has to come next. -/
def expect (mark : Mark) (what : Expected) : Parse R Unit := do
  if ← nextIs mark then skip else fail (.missing what)

/-! ## Counting brackets and levels -/

/-- Reads a part with the scan changed on the way in and, whether reading succeeds or not, on the
way out. The change on the way out also sees the scan from before. -/
def within (enter : Scan R → Scan R) (leave : Scan R → Scan R → Scan R) (part : Parse R α) :
    Parse R α :=
  ExceptT.mk do
    let before ← get
    set (enter before)
    let result ← part.run
    modify (leave before)
    return result

/-- Reads a part one level further in, if there is one left. -/
def deeper (part : Parse R α) : Parse R α := do
  if Formula.maxDepth ≤ (← get).nesting then fail .tooDeep
  else
    within (fun scan => { scan with nesting := scan.nesting + 1 })
      (fun _ scan => { scan with nesting := scan.nesting - 1 }) part

/-- Reads a part between brackets, where no bar is open. -/
def bracketed (part : Parse R α) : Parse R α :=
  within (fun scan => { scan with bars := 0 })
    (fun before scan => { scan with bars := before.bars }) part

/-- Reads a part between bars. -/
def barred (part : Parse R α) : Parse R α :=
  within (fun scan => { scan with bars := scan.bars + 1 })
    (fun _ scan => { scan with bars := scan.bars - 1 }) part

/-! ## Chains of operators -/

/-- Goes on from a formula as long as `step` extends it. Each step that extends passes over a
token, so the tokens left are fuel enough. -/
def chain (step : Formula R → Parse R (Option (Formula R))) : Nat → Formula R → Parse R (Formula R)
  | 0, left => return left
  | fuel + 1, left => do
    match ← step left with
    | some longer => chain step fuel longer
    | none => return left

/-- A first part, extended as long as possible. -/
def leftChain (first : Parse R (Formula R)) (step : Formula R → Parse R (Option (Formula R))) :
    Parse R (Formula R) := do
  let left ← first
  chain step (← get).rest.length left

/-- What a sum is made of: an operand with its sign, and an operand that has none. Both are one
level further in than the formula that they are part of. -/
structure Operand (R : Type) where
  signed : Parse R (Formula R)
  power : Parse R (Formula R)

variable (operand : Operand R)

/-- One more factor beside a formula. -/
def factorStep (left : Formula R) : Parse R (Option (Formula R)) := do
  match ← next? with
  | some (.number _) | some (.name _) | some (.mark .opening) =>
    return some (.binary .mul left (← operand.power))
  | some (.mark .bar) =>
    if (← get).bars = 0 then return some (.binary .mul left (← operand.power)) else return none
  | _ => return none

/-- Factors side by side. -/
def juxtaposition : Parse R (Formula R) := leftChain operand.signed (factorStep operand)

/-- One more factor, divisor or modulus after a formula. -/
def termStep (left : Formula R) : Parse R (Option (Formula R)) := do
  match ← next? with
  | some (.mark .star) => skip; return some (.binary .mul left (← juxtaposition operand))
  | some (.mark .slash) => skip; return some (.binary .div left (← juxtaposition operand))
  | some (.mark .percent) => skip; return some (.binary .mod left (← juxtaposition operand))
  | _ => return none

/-- Products, quotients and remainders. -/
def term : Parse R (Formula R) := leftChain (juxtaposition operand) (termStep operand)

/-- One more summand after a formula. -/
def sumStep (left : Formula R) : Parse R (Option (Formula R)) := do
  match ← next? with
  | some (.mark .plus) => skip; return some (.binary .add left (← term operand))
  | some (.mark .minus) => skip; return some (.binary .sub left (← term operand))
  | _ => return none

/-- Sums and differences. -/
def sum : Parse R (Formula R) := leftChain (term operand) (sumStep operand)

/-! ## Operands -/

/-- The arguments in parentheses behind a function's name, which stands at `start`. -/
def arguments (name : String) (start : Nat) (content : Parse R (Formula R)) :
    Parse R (Formula R) := do
  if ← nextIs .opening then
    skip
    let formula ← content
    expect .closing .closingParenthesis
    return formula
  else throw ⟨.argumentsMissing name, start⟩

/-- What a name at `start`, already passed over, begins. -/
def named (name : String) (start : Nat) : Parse R (Formula R) :=
  match NameMeaning.of name with
  | .free => return .named name
  | .constant c => return .constant c
  | .function op => arguments name start do
    return .unary op (← bracketed (sum operand))
  | .naturalLogarithm => arguments name start do
    return .binary .log (.constant .euler) (← bracketed (sum operand))
  | .logarithm => arguments name start do
    let base ← bracketed (sum operand)
    expect .comma .logarithmComma
    return .binary .log base (← bracketed (sum operand))

/-- A number, a name with its arguments, or a formula in parentheses or bars. -/
def primary : Parse R (Formula R) := do
  let start ← position
  match ← next? with
  | none => throw ⟨.endOfInput, start⟩
  | some token =>
    skip
    match token with
    | .number value => return .number value
    | .name name => named operand name start
    | .mark .opening =>
      let inner ← bracketed (sum operand)
      expect .closing .closingParenthesis
      return inner
    | .mark .bar =>
      let inner ← barred (sum operand)
      expect .bar .closingBar
      return .unary .abs inner
    | .mark _ => throw ⟨.operandMissing, start⟩

/-- A primary with the exponent it may have. -/
def exponent : Parse R (Formula R) := do
  let base ← primary operand
  if ← nextIs .caret then
    skip
    return .binary .pow base (← operand.signed)
  else return base

/-- A primary with its exponent, one level further in. -/
def power : Parse R (Formula R) := deeper (exponent operand)

/-- The negative of a formula; a number is turned into its negative. -/
def negative [Neg R] : Formula R → Formula R
  | .number value => .number (-value)
  | formula => .unary .neg formula

/-- An operand with the sign it may have. -/
def signed [Neg R] : Parse R (Formula R) := do
  if ← nextIs .minus then
    skip
    return negative (← deeper operand.signed)
  else power operand

/-- Operands with so many levels below them. -/
def operandWith [Neg R] : Nat → Operand R
  | 0 => ⟨fail .tooDeep, fail .tooDeep⟩
  | levels + 1 =>
    let inner := operandWith levels
    ⟨signed inner, power inner⟩

/-- Reads a formula from a scan on. The levels are one more than can still be begun, so the last
of them is never entered. -/
def formula [Neg R] : Parse R (Formula R) := do
  sum (operandWith (Formula.maxDepth + 1 - (← get).nesting))

end Parse

namespace Formula

variable {R : Type} [OfScientific R] [Neg R]

/-- Reads a list of tokens as one formula; `stop` is the length of the text they come from. Long
chains of operators make deep trees without deep nesting, so the depth is checked at the end. -/
def ofTokens (tokens : List (PlacedToken R)) (stop : Nat) : Except SyntaxError (Formula R) := do
  let (result, after) := Parse.formula.run.run ⟨tokens, stop, 0, 0⟩
  let formula ← result
  match after.rest with
  | extra :: _ => throw ⟨.trailingInput, extra.position⟩
  | [] => if maxDepth < formula.depth then throw ⟨.tooDeep, 0⟩ else return formula

/-- Reads a text as a formula. -/
def parse (text : String) : Except SyntaxError (Formula R) := do
  let characters := text.toList
  let tokens ← tokenize characters
  match tokens[maxTokens]? with
  | some extra => throw ⟨.tooLong, extra.position⟩
  | none => ofTokens tokens (Text.byteLength characters)

/-- The byte at which `part` first occurs in a text, counted from `position`. -/
def find? (part : List Char) (position : Nat) : List Char → Option Nat
  | [] => if part.isEmpty then some position else none
  | c :: rest =>
    if part.isPrefixOf (c :: rest) then some position
    else find? part (position + c.utf8Size) rest

/-- Reads a text as a formula in which no variable but the time occurs. The first other variable
is reported where its name first occurs in the text. -/
def parsePlayable (text : String) : Except SyntaxError (Formula R) := do
  let formula ← parse text
  match formula.foreignName? with
  | none => return formula
  | some name => throw ⟨.unknownVariable name, (find? name.toList 0 text.toList).getD 0⟩

end Formula

end Tonegraph
