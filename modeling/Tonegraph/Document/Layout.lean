import Tonegraph.Document
/-!
# Writing documents

Documents are written over several lines. Every entry of an object has a line of its own, two
blanks further in than the line the object begins on; an object without entries is `{}`. Strings
are quoted: a quote, a backslash and the control characters below 0x20 are escaped, and everything
else stands for itself.
-/

set_option autoImplicit false

namespace Tonegraph.Document

/-- A number below 256 as two hexadecimal digits. -/
def twoHexDigits (n : Nat) : List Char := [Nat.digitChar (n / 16), Nat.digitChar (n % 16)]

/-- A character as it stands in a quoted string. -/
def quotedCharacter (c : Char) : List Char :=
  match c with
  | '"' => ['\\', '"']
  | '\\' => ['\\', '\\']
  | '\x08' => ['\\', 'b']
  | '\t' => ['\\', 't']
  | '\n' => ['\\', 'n']
  | '\x0c' => ['\\', 'f']
  | '\x0d' => ['\\', 'r']
  | c => if c.toNat < 0x20 then ['\\', 'u', '0', '0'] ++ twoHexDigits c.toNat else [c]

/-- A quoted string. -/
def quoted (text : List Char) : List Char := '"' :: text.flatMap quotedCharacter ++ ['"']

/-- A natural number in decimal. -/
def naturalText (n : Nat) : List Char := Nat.toDigits 10 n

/-- An integer in decimal. -/
def integerText (n : Int) : List Char :=
  if n < 0 then '-' :: naturalText n.natAbs else naturalText n.natAbs

/-- The blanks that a line begins with, so many steps in. -/
def indent (depth : Nat) : List Char := List.replicate (2 * depth) ' '

/-- One entry of an object, on its own line. -/
def entryLine (depth : Nat) (entry : List Char × List Char) : List Char :=
  indent depth ++ quoted entry.1 ++ [':', ' '] ++ entry.2

/-- An object on a line that begins `depth` steps in. Its entries are names and written values. -/
def object (depth : Nat) (entries : List (List Char × List Char)) : List Char :=
  if entries.isEmpty then ['\x7b', '\x7d']
  else
    ['\x7b', '\n'] ++ [',', '\n'].intercalate (entries.map (entryLine (depth + 1))) ++
      ['\n'] ++ indent depth ++ ['\x7d']

end Tonegraph.Document
