/-
  PgClient.Json.Basic

  JSON twice: as a document, which keeps what was written (digits, escapes,
  repeated keys), and as a value, which keeps what it means. Documents come from
  `Json.Document.parse`, values from `Json.Document.value`.
-/

namespace PgClient.Json

/-! ## Values -/

/-- A number: an integer where it fits 64 bits, else a double. -/
inductive Number where
  | natural (n : UInt64)
  | negative (n : Int64)
  | double (bits : UInt64)
  deriving DecidableEq, Repr

end Json

/-- A JSON value. The fields of an object are in ascending order of their keys, each key
once. -/
inductive Json where
  | null
  | bool (b : Bool)
  | number (n : Json.Number)
  | string (s : String)
  | array (items : List Json)
  | object (fields : List (String × Json))
  deriving Repr, Inhabited

namespace Json

/-- Fields with one more, which replaces a field of the same key. -/
def insert (key : String) (value : Json) : List (String × Json) → List (String × Json)
  | [] => [(key, value)]
  | (k, v) :: rest =>
    if key = k then (key, value) :: rest
    else if key < k then (key, value) :: (k, v) :: rest
    else (k, v) :: insert key value rest

theorem lookup_insert (key : String) (value : Json) (fields : List (String × Json)) :
    (insert key value fields).lookup key = some value := by
  induction fields with
  | nil => simp [insert]
  | cons field rest ih =>
    obtain ⟨k, v⟩ := field
    by_cases h : key = k
    · simp [insert, h]
    · have hne : (key == k) = false := by simp [h]
      by_cases hlt : key < k <;> simp [insert, h, hlt, List.lookup_cons, hne, ih]

/-! ## Documents -/

/-- One element of a written string: a character, or a UTF-16 unit given by its number. -/
inductive Symbol where
  | char (c : Char)
  | code (n : Nat)
  deriving DecidableEq, Repr

/-- A written number: its sign, digits before and after the point, and exponent. -/
structure Numeral where
  negative : Bool
  whole : List Char
  fraction : List Char
  exponent : Option (Bool × List Char)
  deriving DecidableEq, Repr

/-- A JSON text as written. -/
inductive Document where
  | null
  | bool (b : Bool)
  | number (n : Numeral)
  | string (symbols : List Symbol)
  | array (items : List Document)
  | object (fields : List (List Symbol × Document))
  deriving Repr

/-- The characters of a written string; a surrogate must be the first or second half of a
pair. -/
def joinSymbols : List Symbol → Option (List Char)
  | [] => some []
  | .char c :: rest => (joinSymbols rest).map (c :: ·)
  | .code n :: rest =>
    if n < 0xD800 || 0xDFFF < n then (joinSymbols rest).map (Char.ofNat n :: ·)
    else if 0xDC00 ≤ n then none
    else match rest with
      | .code m :: rest' =>
        if 0xDC00 ≤ m && m ≤ 0xDFFF then
          (joinSymbols rest').map (Char.ofNat (0x10000 + (n - 0xD800) * 1024 + (m - 0xDC00)) :: ·)
        else none
      | _ => none

end Json

end PgClient
