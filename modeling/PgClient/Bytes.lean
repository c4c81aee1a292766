/-
  PgClient.Bytes

  Byte strings, big-endian words of any width, and lower-case hex.

  A word is written by `bigEndian` and read back by `value`; the fixed widths of
  the wire are instances of the two.
-/

namespace PgClient

/-- A byte string. -/
abbrev Bytes := List UInt8

namespace Bytes

/-! ## Words -/

/-- The low `width` bytes of a number, most significant byte first. -/
def bigEndian : Nat → Nat → Bytes
  | 0, _ => []
  | width + 1, n => bigEndian width (n / 256) ++ [UInt8.ofNat n]

/-- The number that a byte string spells, most significant byte first. -/
def value (bs : Bytes) : Nat :=
  bs.foldl (fun acc b => acc * 256 + b.toNat) 0

@[simp] theorem length_bigEndian (width n : Nat) : (bigEndian width n).length = width := by
  induction width generalizing n with
  | zero => rfl
  | succ w ih => simp [bigEndian, ih]

theorem value_append_singleton (bs : Bytes) (b : UInt8) :
    value (bs ++ [b]) = value bs * 256 + b.toNat := by
  simp [value, List.foldl_append]

/-- How many numbers a width can hold. -/
def capacity : Nat → Nat
  | 0 => 1
  | width + 1 => capacity width * 256

/-- Reading undoes writing, up to the bits that the width drops. -/
theorem value_bigEndian (width n : Nat) : value (bigEndian width n) = n % capacity width := by
  induction width generalizing n with
  | zero => simp [bigEndian, value, capacity, Nat.mod_one]
  | succ w ih =>
    rw [bigEndian, value_append_singleton, ih]
    -- The last byte is the remainder, and the bytes before it spell the quotient.
    have last : (UInt8.ofNat n).toNat = n % 256 := by simp
    rw [last, capacity, Nat.mul_comm (capacity w) 256, Nat.mod_mul]
    omega

def ofInt16 (w : Int16) : Bytes := bigEndian 2 w.toUInt16.toNat
def ofInt32 (w : Int32) : Bytes := bigEndian 4 w.toUInt32.toNat
def ofInt64 (w : Int64) : Bytes := bigEndian 8 w.toUInt64.toNat
def ofUInt32 (w : UInt32) : Bytes := bigEndian 4 w.toNat
def ofUInt64 (w : UInt64) : Bytes := bigEndian 8 w.toNat

def toInt16 (bs : Bytes) : Int16 := (UInt16.ofNat (value bs)).toInt16
def toInt32 (bs : Bytes) : Int32 := (UInt32.ofNat (value bs)).toInt32
def toInt64 (bs : Bytes) : Int64 := (UInt64.ofNat (value bs)).toInt64
def toUInt32 (bs : Bytes) : UInt32 := UInt32.ofNat (value bs)
def toUInt64 (bs : Bytes) : UInt64 := UInt64.ofNat (value bs)

/-! ## Cutting -/

/-- The first `n` bytes and the rest, if there are as many. -/
def split? : Nat → Bytes → Option (Bytes × Bytes)
  | 0, bs => some ([], bs)
  | _ + 1, [] => none
  | n + 1, b :: bs => (split? n bs).map fun (front, rest) => (b :: front, rest)

theorem split?_eq (n : Nat) (bs : Bytes) :
    split? n bs = if n ≤ bs.length then some (bs.take n, bs.drop n) else none := by
  induction n generalizing bs with
  | zero => simp [split?]
  | succ n ih =>
    cases bs with
    | nil => simp [split?]
    | cons b bs =>
      rw [split?, ih]
      by_cases h : n ≤ bs.length <;> simp [h]

/-! ## Hex -/

/-- The lower-case digit for a number below 16. -/
def hexDigit (n : Nat) : Char :=
  if n < 10 then Char.ofNat (48 + n) else Char.ofNat (87 + n)

/-- Two lower-case hex digits per byte. -/
def hex (bs : Bytes) : List Char :=
  bs.flatMap fun b => [hexDigit (b.toNat / 16), hexDigit (b.toNat % 16)]

end Bytes

end PgClient
