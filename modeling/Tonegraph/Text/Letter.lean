import Tonegraph.Text.LetterTable
/-!
# Letters, numbers and blanks

The three classes of characters that the text of a formula is cut by. Below 0x80 they are the
Latin letters, the ten digits, and the blank with the five control characters from tabulator to
carriage return. Beyond, letters and numbers are looked up in a table, and the blanks are few
enough to be named.
-/

set_option autoImplicit false

namespace Tonegraph.Text

/-- Whether a code point lies in one of some ranges. -/
def inRanges (ranges : List (Nat × Nat)) (n : Nat) : Bool :=
  ranges.any fun (low, high) => low ≤ n && n ≤ high

/-- A letter: a character with the property Alphabetic. -/
def isLetter (c : Char) : Bool :=
  c.isAlpha || (0x80 ≤ c.toNat && inRanges letterRanges c.toNat)

/-- A letter, or a number of any kind. -/
def isLetterOrNumber (c : Char) : Bool :=
  c.isAlphanum ||
    (0x80 ≤ c.toNat && (inRanges letterRanges c.toNat || inRanges numberRanges c.toNat))

/-- The ranges of characters with the property White_Space. -/
def blankRanges : List (Nat × Nat) :=
  [(0x09, 0x0d), (0x20, 0x20), (0x85, 0x85), (0xa0, 0xa0), (0x1680, 0x1680), (0x2000, 0x200a),
   (0x2028, 0x2029), (0x202f, 0x202f), (0x205f, 0x205f), (0x3000, 0x3000)]

/-- A blank: a character with the property White_Space. -/
def isBlank (c : Char) : Bool := inRanges blankRanges c.toNat

/-- The number of bytes that a text takes. Positions in a text count bytes. -/
def byteLength : List Char → Nat
  | [] => 0
  | c :: rest => c.utf8Size + byteLength rest

end Tonegraph.Text
