import Tonegraph.Arithmetic
import Tonegraph.Decimal.Reading
import Tonegraph.Text.Letter
/-!
# Tokens: cutting the text of a formula

The text of a formula is cut into lexemes with blanks between them. A number is a run of digits
with at most one point, a name is a run of letters, with an underscore and a run of letters and
numbers behind it as its subscript when the underscore has one directly behind it, and each
operator is one character. Every lexeme is as long as it can be.

`Lexeme.first?` cuts off the first lexeme of a text, `Lexeme.split` cuts the whole text, and
`Lexeme.token` says what a lexeme means. Positions count the bytes before a lexeme.
-/

set_option autoImplicit false

namespace Tonegraph

/-- What a formula that cannot be read is expected to have at some place. -/
inductive Expected where
  | closingParenthesis
  | closingBar
  | logarithmComma
deriving DecidableEq, Repr

/-- Why a text is no formula. -/
inductive SyntaxFault where
  | invalidNumber (spelling : String)
  | unexpectedCharacter (character : Char)
  | tooLong
  | tooDeep
  | trailingInput
  | endOfInput
  | operandMissing
  | missing (what : Expected)
  | argumentsMissing (function : String)
  | unknownVariable (name : String)
deriving DecidableEq, Repr

/-- A fault and the byte of the text at which it was noticed. -/
structure SyntaxError where
  fault : SyntaxFault
  position : Nat
deriving DecidableEq, Repr

/-- How an expected thing is named. -/
def Expected.text : Expected → String
  | .closingParenthesis => "')'"
  | .closingBar => "closing '|'"
  | .logarithmComma => "',' between log base and argument"

/-- What a fault says. -/
def SyntaxFault.message : SyntaxFault → String
  | .invalidNumber spelling => "invalid number '" ++ spelling ++ "'"
  | .unexpectedCharacter character => "unexpected character '" ++ character.toString ++ "'"
  | .tooLong => "expression is too long"
  | .tooDeep => "expression is nested too deeply"
  | .trailingInput => "unexpected input"
  | .endOfInput => "unexpected end of input"
  | .operandMissing => "expected a number, variable or '('"
  | .missing what => "expected " ++ what.text
  | .argumentsMissing function => "expected '(' after " ++ function
  | .unknownVariable name => "unknown variable '" ++ name ++ "'"

/-- What a fault says, and where. -/
def SyntaxError.message (e : SyntaxError) : String :=
  e.fault.message ++ " at position " ++ toString e.position

/-- The operators and brackets of formulas. -/
inductive Mark where
  | plus
  | minus
  | star
  | slash
  | percent
  | caret
  | opening
  | closing
  | comma
  | bar
deriving DecidableEq, Repr

/-- The mark that a character is. -/
def Mark.ofChar? : Char → Option Mark
  | '+' => some .plus
  | '-' => some .minus
  | '*' => some .star
  | '/' => some .slash
  | '%' => some .percent
  | '^' => some .caret
  | '(' => some .opening
  | ')' => some .closing
  | ',' => some .comma
  | '|' => some .bar
  | _ => none

/-- A piece of a formula's text that has a meaning of its own. -/
inductive Token (R : Type) where
  | number (value : R)
  | name (name : String)
  | mark (mark : Mark)
deriving Repr

/-- A token and the byte of the text at which it starts. -/
structure PlacedToken (R : Type) where
  token : Token R
  position : Nat
deriving Repr

/-- The three kinds of lexemes. -/
inductive LexemeKind where
  | number
  | name
  | mark (mark : Mark)
deriving DecidableEq, Repr

/-- A lexeme as it is spelled, and the byte of the text at which it starts. -/
structure Lexeme where
  kind : LexemeKind
  spelling : List Char
  position : Nat
deriving DecidableEq, Repr

namespace Lexeme

/-- The longest run of digits with at most one point at the front of a text, and the rest. -/
def spanNumber (text : List Char) : List Char × List Char :=
  let (whole, rest) := Decimal.spanDigits text
  match rest with
  | '.' :: rest =>
    let (fraction, rest) := Decimal.spanDigits rest
    (whole ++ '.' :: fraction, rest)
  | rest => (whole, rest)

/-- The longest name at the front of a text, and the rest. The name is empty when the text does
not start with a letter. -/
def spanName (text : List Char) : List Char × List Char :=
  let (letters, rest) := text.span Text.isLetter
  match rest with
  | '_' :: c :: after =>
    if Text.isLetterOrNumber c then
      let (subscript, rest) := (c :: after).span Text.isLetterOrNumber
      (letters ++ '_' :: subscript, rest)
    else (letters, rest)
  | rest => (letters, rest)

/-- The kind and the spelling of the first lexeme of a text, and the rest of the text; nothing
when its first character starts no lexeme. -/
def first? : List Char → Option (LexemeKind × List Char × List Char)
  | [] => none
  | c :: rest =>
    if c.isDigit || c = '.' then
      let (spelling, rest) := spanNumber (c :: rest)
      some (.number, spelling, rest)
    else if Text.isLetter c then
      let (spelling, rest) := spanName (c :: rest)
      some (.name, spelling, rest)
    else (Mark.ofChar? c).map fun mark => (.mark mark, [c], rest)

/-- Cuts a text from a position on. Each step takes at least one character, so the fuel need not
exceed the number of characters. -/
def splitFrom : Nat → Nat → List Char → Except SyntaxError (List Lexeme)
  | 0, _, _ => .ok []
  | _ + 1, _, [] => .ok []
  | fuel + 1, position, c :: rest =>
    if Text.isBlank c then splitFrom fuel (position + c.utf8Size) rest
    else
      match first? (c :: rest) with
      | none => .error ⟨.unexpectedCharacter c, position⟩
      | some (kind, spelling, rest) =>
        if spelling = ['.'] then .error ⟨.invalidNumber ".", position⟩
        else
          (splitFrom fuel (position + Text.byteLength spelling) rest).map
            (⟨kind, spelling, position⟩ :: ·)

/-- Cuts a text into its lexemes. -/
def split (text : List Char) : Except SyntaxError (List Lexeme) := splitFrom text.length 0 text

/-- The number that digits with at most one point stand for. -/
def number {R : Type} [OfScientific R] (spelling : List Char) : R :=
  let (whole, rest) := Decimal.spanDigits spelling
  let fraction := rest.drop 1
  OfScientific.ofScientific (Decimal.ofDigits (whole ++ fraction)) true fraction.length

/-- What a lexeme means. -/
def token {R : Type} [OfScientific R] (l : Lexeme) : PlacedToken R :=
  match l.kind with
  | .number => ⟨.number (number l.spelling), l.position⟩
  | .name => ⟨.name (String.ofList l.spelling), l.position⟩
  | .mark mark => ⟨.mark mark, l.position⟩

end Lexeme

/-- The tokens of a text. -/
def tokenize {R : Type} [OfScientific R] (text : List Char) :
    Except SyntaxError (List (PlacedToken R)) :=
  (Lexeme.split text).map fun lexemes => lexemes.map Lexeme.token

end Tonegraph
