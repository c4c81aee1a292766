/-
  PgClient.Bytes.Lemmas

  Words of every width in use are read back as they were written, and byte
  strings of a word's width are written back as they were read.
-/
import Mathlib.Data.List.Induction
import PgClient.Bytes

namespace PgClient.Bytes

/-! ## Any width -/

/-- A byte string is the writing of the number that it spells. -/
theorem bigEndian_value (bs : Bytes) : bigEndian bs.length (value bs) = bs := by
  induction bs using List.reverseRecOn with
  | nil => rfl
  | append_singleton bs b ih =>
    have quotient : (value bs * 256 + b.toNat) / 256 = value bs := by
      have := b.toNat_lt
      omega
    have last : UInt8.ofNat (value bs * 256 + b.toNat) = b := by
      apply UInt8.toNat_inj.1
      have := b.toNat_lt
      simp only [UInt8.toNat_ofNat']
      omega
    rw [List.length_append, List.length_singleton, bigEndian, value_append_singleton, quotient,
      last, ih]

theorem value_lt_capacity (bs : Bytes) : value bs < capacity bs.length := by
  rw [← bigEndian_value bs, value_bigEndian, length_bigEndian]
  apply Nat.mod_lt
  generalize bs.length = width
  induction width with
  | zero => decide
  | succ w ih => rw [capacity]; omega

variable {bs : Bytes} {width : Nat}

theorem bigEndian_of_length (h : bs.length = width) : bigEndian width (value bs) = bs :=
  h ▸ bigEndian_value bs

theorem value_bigEndian_of_lt {n : Nat} (h : n < capacity width) :
    value (bigEndian width n) = n := by
  rw [value_bigEndian, Nat.mod_eq_of_lt h]

/-! ## Reading what was written -/

theorem toInt16_ofInt16 (w : Int16) : toInt16 (ofInt16 w) = w := by
  rw [toInt16, ofInt16, value_bigEndian_of_lt w.toUInt16.toNat_lt, UInt16.ofNat_toNat,
    Int16.toInt16_toUInt16]

theorem toInt32_ofInt32 (w : Int32) : toInt32 (ofInt32 w) = w := by
  rw [toInt32, ofInt32, value_bigEndian_of_lt w.toUInt32.toNat_lt, UInt32.ofNat_toNat,
    Int32.toInt32_toUInt32]

theorem toInt64_ofInt64 (w : Int64) : toInt64 (ofInt64 w) = w := by
  rw [toInt64, ofInt64, value_bigEndian_of_lt w.toUInt64.toNat_lt, UInt64.ofNat_toNat,
    Int64.toInt64_toUInt64]

theorem toUInt32_ofUInt32 (w : UInt32) : toUInt32 (ofUInt32 w) = w := by
  rw [toUInt32, ofUInt32, value_bigEndian_of_lt w.toNat_lt, UInt32.ofNat_toNat]

theorem toUInt64_ofUInt64 (w : UInt64) : toUInt64 (ofUInt64 w) = w := by
  rw [toUInt64, ofUInt64, value_bigEndian_of_lt w.toNat_lt, UInt64.ofNat_toNat]

/-! ## Writing what was read -/

theorem ofInt32_toInt32 (h : bs.length = 4) : ofInt32 (toInt32 bs) = bs := by
  have hbs : value bs < UInt32.size := by simpa [h, capacity] using value_lt_capacity bs
  have hn : (toInt32 bs).toUInt32.toNat = value bs := UInt32.toNat_ofNat_of_lt hbs
  rw [ofInt32, hn, bigEndian_of_length h]

theorem ofInt64_toInt64 (h : bs.length = 8) : ofInt64 (toInt64 bs) = bs := by
  have hbs : value bs < UInt64.size := by simpa [h, capacity] using value_lt_capacity bs
  have hn : (toInt64 bs).toUInt64.toNat = value bs := UInt64.toNat_ofNat_of_lt hbs
  rw [ofInt64, hn, bigEndian_of_length h]

end PgClient.Bytes
