/-
  PgClient.Text.Quoted

  Texts and characters in quotes, as they stand in messages: NUL, tab, line
  feed, carriage return, backslash and the quote itself have short escapes, and
  a character that is not printable is written by its number.
-/
import PgClient.Bytes
import PgClient.Text.Printable

namespace PgClient.Text

/-- The hexadecimal digits of a number, without leading zeros. -/
def hexNumber (n : Nat) : List Char := Nat.toDigits 16 n

/-- One character between quotes of the kind `mark`. -/
def escape (mark c : Char) : List Char :=
  if c = '\x00' then ['\\', '0']
  else if c = '\t' then ['\\', 't']
  else if c = '\n' then ['\\', 'n']
  else if c = '\r' then ['\\', 'r']
  else if c = '\\' || c = mark then ['\\', c]
  else if isPrintable c then [c]
  else ['\\', 'u', '\x7b'] ++ hexNumber c.toNat ++ ['\x7d']

/-- A text in double quotes. -/
def quoted (s : String) : String :=
  String.ofList ('"' :: s.toList.flatMap (escape '"') ++ ['"'])

/-- A character in single quotes. -/
def quotedChar (c : Char) : String :=
  String.ofList ('\'' :: escape '\'' c ++ ['\''])

/-- A byte in single quotes, shown as the character of its number. -/
def quotedByte (b : UInt8) : String :=
  quotedChar (Char.ofNat b.toNat)

/-- A list of texts in brackets. -/
def quotedList (ss : List String) : String :=
  "[" ++ ", ".intercalate (ss.map quoted) ++ "]"

end PgClient.Text
