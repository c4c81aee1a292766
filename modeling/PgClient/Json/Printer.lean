/-
  PgClient.Json.Printer

  JSON values as compact text. Doubles have the fewest digits that read back, a
  half going to the even neighbour; they are positional from 10^-5 up to 10^16
  and always carry a point or an exponent.
-/
import PgClient.Decimal.Notation
import PgClient.Json.Basic
import PgClient.Bytes

namespace PgClient.Json

/-- A double; JSON has no text for what is not finite. -/
def doubleText (bits : UInt64) : List Char :=
  match Decimal.Layout.double.read bits.toNat with
  | .finite negative m e narrow =>
    let n := Decimal.shortest .even m e narrow
    Decimal.signed negative <|
      if m = 0 || (-4 ≤ n.point && n.point ≤ 16) then
        n.positional ++ if 0 ≤ n.exponent then ['.', '0'] else []
      else n.scientific
  | _ => ['n', 'u', 'l', 'l']

def Number.text : Number → List Char
  | .natural n => Integer.natural n.toNat
  | .negative n => Integer.text n.toInt
  | .double bits => doubleText bits

/-- One character inside quotes. -/
def escape (c : Char) : List Char :=
  if c = '"' then ['\\', '"']
  else if c = '\\' then ['\\', '\\']
  else if c = '\x08' then ['\\', 'b']
  else if c = '\x0c' then ['\\', 'f']
  else if c = '\n' then ['\\', 'n']
  else if c = '\r' then ['\\', 'r']
  else if c = '\t' then ['\\', 't']
  else if c.toNat < 0x20 then
    ['\\', 'u', '0', '0', Bytes.hexDigit (c.toNat / 16), Bytes.hexDigit (c.toNat % 16)]
  else [c]

def stringText (s : String) : List Char := '"' :: s.toList.flatMap escape ++ ['"']

mutual

/-- A value without any blanks. -/
def chars : Json → List Char
  | .null => ['n', 'u', 'l', 'l']
  | .bool true => ['t', 'r', 'u', 'e']
  | .bool false => ['f', 'a', 'l', 's', 'e']
  | .number n => n.text
  | .string s => stringText s
  | .array [] => ['[', ']']
  | .array (item :: items) => '[' :: chars item ++ charsItems items
  | .object [] => ['\x7b', '\x7d']
  | .object ((key, value) :: fields) =>
    '\x7b' :: stringText key ++ ':' :: chars value ++ charsFields fields

/-- The items after the first, and the closing bracket. -/
def charsItems : List Json → List Char
  | [] => [']']
  | item :: items => ',' :: chars item ++ charsItems items

/-- The fields after the first, and the closing brace. -/
def charsFields : List (String × Json) → List Char
  | [] => ['\x7d']
  | (key, value) :: fields => ',' :: stringText key ++ ':' :: chars value ++ charsFields fields

end

/-- The compact text of a value. -/
def text (j : Json) : String := String.ofList (chars j)

end PgClient.Json
