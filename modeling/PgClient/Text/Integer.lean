/-
  PgClient.Text.Integer

  Decimal integers of a bounded range. The digits are read from the left, and
  the first thing wrong decides the fault: a character that is no digit, or a
  digit that takes the number out of range.
-/

namespace PgClient.Integer

/-- Why a text is no integer of the range. -/
inductive Fault where
  | empty
  | digit
  | tooLarge
  | tooSmall
  deriving DecidableEq, Repr

def Fault.message : Fault → String
  | .empty => "cannot parse integer from empty string"
  | .digit => "invalid digit found in string"
  | .tooLarge => "number too large to fit in target type"
  | .tooSmall => "number too small to fit in target type"

/-- The digits after `acc`, as long as the number stays within `limit`. -/
def digits (limit : Nat) (beyond : Fault) (acc : Nat) : List Char → Except Fault Nat
  | [] => .ok acc
  | c :: rest =>
    if c.isDigit then
      let next := acc * 10 + (c.toNat - 48)
      if next ≤ limit then digits limit beyond next rest else .error beyond
    else .error .digit

/-- An integer from `low` to `high`, with an optional sign; a minus sign is a digit out of
place where the range has no negative number. -/
def read (low high : Int) : List Char → Except Fault Int
  | [] => .error .empty
  | ['+'] | ['-'] => .error .digit
  | '+' :: ds => (digits high.toNat .tooLarge 0 ds).map Int.ofNat
  -- Below zero the digits are held against the other end of the range.
  | '-' :: ds =>
    if low < 0 then (digits (-low).toNat .tooSmall 0 ds).map fun n => -(n : Int)
    else .error .digit
  | ds => (digits high.toNat .tooLarge 0 ds).map Int.ofNat

/-! ## The ranges in use -/

def readUInt16 (cs : List Char) : Except Fault UInt16 :=
  (read 0 65535 cs).map fun n => UInt16.ofNat n.toNat

def readUInt32 (cs : List Char) : Except Fault UInt32 :=
  (read 0 4294967295 cs).map fun n => UInt32.ofNat n.toNat

def readUInt64 (cs : List Char) : Except Fault UInt64 :=
  (read 0 18446744073709551615 cs).map fun n => UInt64.ofNat n.toNat

def readInt32 (cs : List Char) : Except Fault Int32 :=
  (read (-2147483648) 2147483647 cs).map Int32.ofInt

def readInt64 (cs : List Char) : Except Fault Int64 :=
  (read (-9223372036854775808) 9223372036854775807 cs).map Int64.ofInt

/-! ## Writing -/

/-- A number in decimal, without leading zeros. -/
def natural (n : Nat) : List Char := Nat.toDigits 10 n

/-- A number in decimal, with zeros in front up to a width. -/
def padded (width n : Nat) : List Char := (natural n).leftpad width '0'

/-- An integer in decimal, with a minus sign if negative. -/
def text (n : Int) : List Char :=
  if n < 0 then '-' :: natural n.natAbs else natural n.natAbs

end PgClient.Integer
