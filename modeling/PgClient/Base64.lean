/-
  PgClient.Base64

  Base64 with the standard alphabet and padding. The reader accepts exactly what
  the writer produces: four characters per group, padding only at the end, and
  no stray bits in a padded group.
-/
import PgClient.Bytes

namespace PgClient.Base64

/-! ## Alphabet -/

/-- The character for a number below 64. -/
def symbol (n : Nat) : Char :=
  if n < 26 then Char.ofNat (65 + n)
  else if n < 52 then Char.ofNat (71 + n)
  else if n < 62 then Char.ofNat (n - 4)
  else if n = 62 then '+'
  else '/'

/-- The number that a character stands for. -/
def number (c : Char) : Option Nat :=
  if c.isUpper then some (c.toNat - 65)
  else if c.isLower then some (c.toNat - 71)
  else if c.isDigit then some (c.toNat + 4)
  else if c = '+' then some 62
  else if c = '/' then some 63
  else none

/-! ## Writing -/

def chars : Bytes → List Char
  | [] => []
  | [a] =>
    let n := a.toNat * 16
    [symbol (n / 64), symbol (n % 64), '=', '=']
  | [a, b] =>
    let n := (a.toNat * 256 + b.toNat) * 4
    [symbol (n / 4096), symbol (n / 64 % 64), symbol (n % 64), '=']
  | a :: b :: c :: rest =>
    let n := (a.toNat * 256 + b.toNat) * 256 + c.toNat
    symbol (n / 262144) :: symbol (n / 4096 % 64) :: symbol (n / 64 % 64) :: symbol (n % 64)
      :: chars rest

/-- The text of a byte string. -/
def encode (bs : Bytes) : String := String.ofList (chars bs)

/-! ## Reading -/

/-- The one byte of a group padded twice. -/
def readOne (p q : Char) : Option Bytes := do
  let x ← number p
  let y ← number q
  if y % 16 = 0 then some [UInt8.ofNat (x * 4 + y / 16)] else none

/-- The two bytes of a group padded once. -/
def readTwo (p q r : Char) : Option Bytes := do
  let x ← number p
  let y ← number q
  let z ← number r
  if z % 4 = 0 then some [UInt8.ofNat (x * 4 + y / 16), UInt8.ofNat (y % 16 * 16 + z / 4)]
  else none

/-- The three bytes of a full group. -/
def readThree (p q r s : Char) : Option Bytes := do
  let x ← number p
  let y ← number q
  let z ← number r
  let w ← number s
  return [UInt8.ofNat (x * 4 + y / 16), UInt8.ofNat (y % 16 * 16 + z / 4),
    UInt8.ofNat (z % 4 * 64 + w)]

def readChars : List Char → Option Bytes
  | [] => some []
  | [p, q, '=', '='] => readOne p q
  | [p, q, r, '='] => readTwo p q r
  | p :: q :: r :: s :: rest => do
    let bs ← readThree p q r s
    return bs ++ (← readChars rest)
  | _ => none

/-- The bytes that a text stands for. -/
def decode (s : String) : Option Bytes := readChars s.toList

/-! ## Round trip -/

/-- The number of a symbol is the one it was made from. -/
theorem number_symbol : ∀ n < 64, number (symbol n) = some n := by decide

/-- Three bytes are the three bytes of their group of four. -/
theorem readThree_symbols (a b c : UInt8) :
    let n := (a.toNat * 256 + b.toNat) * 256 + c.toNat
    readThree (symbol (n / 262144)) (symbol (n / 4096 % 64)) (symbol (n / 64 % 64))
      (symbol (n % 64)) = some [a, b, c] := by
  intro n
  have ha := a.toNat_lt
  have hb := b.toNat_lt
  have hc := c.toNat_lt
  have h1 : n / 262144 < 64 := by omega
  have h2 : n / 4096 % 64 < 64 := by omega
  have h3 : n / 64 % 64 < 64 := by omega
  have h4 : n % 64 < 64 := by omega
  -- Each byte is put together again from the numbers it was spread over.
  have ea : n / 262144 * 4 + n / 4096 % 64 / 16 = a.toNat := by omega
  have eb : n / 4096 % 64 % 16 * 16 + n / 64 % 64 / 4 = b.toNat := by omega
  have ec : n / 64 % 64 % 4 * 64 + n % 64 = c.toNat := by omega
  simp only [readThree, number_symbol _ h1, number_symbol _ h2, number_symbol _ h3,
    number_symbol _ h4, Option.bind_eq_bind, Option.bind_some, ea, eb, ec, UInt8.ofNat_toNat]
  rfl

theorem readTwo_symbols (a b : UInt8) :
    let n := (a.toNat * 256 + b.toNat) * 4
    readTwo (symbol (n / 4096)) (symbol (n / 64 % 64)) (symbol (n % 64)) = some [a, b] := by
  intro n
  have ha := a.toNat_lt
  have hb := b.toNat_lt
  have h1 : n / 4096 < 64 := by omega
  have h2 : n / 64 % 64 < 64 := by omega
  have h3 : n % 64 < 64 := by omega
  have h0 : n % 64 % 4 = 0 := by omega
  have ea : n / 4096 * 4 + n / 64 % 64 / 16 = a.toNat := by omega
  have eb : n / 64 % 64 % 16 * 16 + n % 64 / 4 = b.toNat := by omega
  simp only [readTwo, number_symbol _ h1, number_symbol _ h2, number_symbol _ h3, h0, if_true,
    Option.bind_eq_bind, Option.bind_some, ea, eb, UInt8.ofNat_toNat]

theorem readOne_symbols (a : UInt8) :
    let n := a.toNat * 16
    readOne (symbol (n / 64)) (symbol (n % 64)) = some [a] := by
  intro n
  have ha := a.toNat_lt
  have h1 : n / 64 < 64 := by omega
  have h2 : n % 64 < 64 := by omega
  have h0 : n % 64 % 16 = 0 := by omega
  have ea : n / 64 * 4 + n % 64 / 16 = a.toNat := by omega
  simp only [readOne, number_symbol _ h1, number_symbol _ h2, h0, if_true, Option.bind_eq_bind,
    Option.bind_some, ea, UInt8.ofNat_toNat]

/-- No number is written as the padding. -/
theorem symbol_ne_padding : ∀ n < 64, symbol n ≠ '=' := by decide

/-- Reading undoes writing. -/
theorem readChars_chars (bs : Bytes) : readChars (chars bs) = some bs := by
  fun_induction chars bs with
  | case1 => rfl
  | case2 a n => exact readOne_symbols a
  | case3 a b n =>
    -- The third symbol is no padding, so the group is not taken for one of a single byte.
    have h : symbol (n % 64) ≠ '=' := symbol_ne_padding _ (by omega)
    rw [readChars]
    · exact readTwo_symbols a b
    · intro hn; exact absurd hn h
  | case4 a b c rest n ih =>
    have h : symbol (n % 64) ≠ '=' := symbol_ne_padding _ (by omega)
    rw [readChars]
    · rw [readThree_symbols a b c, ih]
      rfl
    · intro _ hs _; exact absurd hs h
    · intro hs _; exact absurd hs h

theorem decode_encode (bs : Bytes) : decode (encode bs) = some bs := by
  simp [decode, encode, readChars_chars]

/-- Besides the padding there are only symbols in a text. -/
theorem notMem_chars {c : Char} (hpadding : c ≠ '=') (h : ∀ n < 64, symbol n ≠ c) (bs : Bytes) :
    c ∉ chars bs := by
  have hsymbol {n : Nat} (hn : n < 64) : c ≠ symbol n := (h n hn).symm
  fun_induction chars bs with
  | case1 => exact List.not_mem_nil
  | case2 a n =>
    have ha := a.toNat_lt
    simp [hpadding, hsymbol (show n / 64 < 64 by omega), hsymbol (show n % 64 < 64 by omega)]
  | case3 a b n =>
    have ha := a.toNat_lt
    have hb := b.toNat_lt
    simp [hpadding, hsymbol (show n / 4096 < 64 by omega),
      hsymbol (show n / 64 % 64 < 64 by omega), hsymbol (show n % 64 < 64 by omega)]
  | case4 a b c rest n ih =>
    have ha := a.toNat_lt
    have hb := b.toNat_lt
    have hc := c.toNat_lt
    simp [ih, hsymbol (show n / 262144 < 64 by omega), hsymbol (show n / 4096 % 64 < 64 by omega),
      hsymbol (show n / 64 % 64 < 64 by omega), hsymbol (show n % 64 < 64 by omega)]

theorem comma_notMem_encode (bs : Bytes) : ',' ∉ (encode bs).toList := by
  rw [encode, String.toList_ofList]
  exact notMem_chars (by decide) (by decide) bs

end PgClient.Base64
